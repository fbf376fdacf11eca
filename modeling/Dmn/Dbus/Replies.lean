import Dmn.Dbus.Calls

/-!
# A reply in time

A reply that the dispatch worker dispatches before the deadline is the result
of its call, if its notify function has been registered by then. A reply that
is dispatched between `send_with_reply` and `set_notify` is lost, and the call
times out.
-/

namespace Dmn.Dbus

open Dmn.Lib

/-- `submit` has not failed. -/
def SubmitPc.onWay : SubmitPc → Bool
  | .idle | .encodes | .sends | .registers | .returned => true
  | _ => false

namespace Call

/-- What `pendingComplete` has done of a call whose reply was in time. -/
def Answering (c : Call) : Prop :=
  match c.notify with
  | .none => False
  | .steals | .erases => c.completed = false ∧ c.results = []
  | .exchanges => c.completed = false ∧ c.results = [] ∧ c.listed = false
  | .subs | .sets => c.results = [] ∧ c.listed = false
  | .done => c.results = [.answered] ∧ c.listed = false

/-- Nobody completes a call before its deadline but `pendingComplete`. -/
structure Prompt (c : Call) : Prop where
  untouched : c.expired = false → c.notify = .none → c.place.onWay → c.completed = false ∧ c.results =
    [] ∧ c.cancelled = false
  answering : c.inTime → c.Answering
  returned : c.inTime ∨ c.registered → c.place = .returned
  undispatched : c.dispatched = false → c.notify = .none ∧ c.inTime = false

/-- What the completion of a call leaves of it. -/
structure Keeps (c d : Call) : Prop where
  expired : d.expired = c.expired
  inTime : d.inTime = c.inTime
  place : d.place = c.place
  registered : d.registered = c.registered
  dispatched : d.dispatched = c.dispatched
  notify : d.notify = c.notify

variable {c d : Call}

theorem Answering.results (h : c.Answering) : c.results = [] ∨ c.results = [.answered] := by
  unfold Answering at h
  cases hnotify : c.notify <;> rw [hnotify] at h
  case none => cases h
  case steals | erases => exact .inl h.2
  case exchanges => exact .inl h.2.1
  case subs | sets => exact .inl h.1
  case done => exact .inr h.1

theorem Answering.done (h : c.Answering) (hactive : c.notify.active = false) :
    c.results = [.answered] ∧ c.listed = false := by
  unfold Answering at h
  cases hnotify : c.notify <;> rw [hnotify] at h hactive
  case none => cases h
  case done => exact h
  all_goals cases hactive

/-- A call after its deadline, whose reply was not in time. -/
theorem Prompt.ofLate (h : c.Prompt) (hexpired : d.expired) (hlate : d.inTime = false)
    (hplace : d.place = c.place)
    (hregistered : d.registered = c.registered) (hdispatched : d.dispatched = c.dispatched)
    (hnotify : d.notify = c.notify) :
    d.Prompt where
  untouched hfalse := by
    rw [hexpired] at hfalse
    cases hfalse
  answering hin := by
    rw [hlate] at hin
    cases hin
  returned hor := hplace.trans (h.returned (.inr (hregistered ▸ hor.resolve_left (by rw [hlate]; exact nofun))))
  undispatched hfalse := ⟨hnotify.trans (h.undispatched (hdispatched ▸ hfalse)).1, hlate⟩

/-- `submit` goes on. -/
theorem Prompt.ofSubmit (h : c.Prompt) (hne : c.place ≠ .returned) (hexpired : d.expired = c.expired)
    (hintime : d.inTime = c.inTime) (hdispatched : d.dispatched = c.dispatched) (hnotify : d.notify = c.notify)
    (hregistered : d.registered → d.place = .returned)
    (huntouched : d.place.onWay → c.place.onWay ∧ d.completed = c.completed ∧ d.results = c.results ∧
    d.cancelled = c.cancelled) :
    d.Prompt := by
  have hlate : c.inTime = false := eq_false_of_ne_true fun hin => hne (h.returned (.inl hin))
  exact {
    untouched := fun hfalse hnone honWay => by
      obtain ⟨hold, hcompleted, hresults, hcancelled⟩ := huntouched honWay
      rw [hcompleted, hresults, hcancelled]
      exact h.untouched (hexpired ▸ hfalse) (hnotify ▸ hnone) hold
    answering := fun hin => by
      rw [hintime, hlate] at hin
      cases hin
    returned := fun hor => hregistered (hor.resolve_left (by rw [hintime, hlate]; exact nofun))
    undispatched := fun hfalse => by
      rw [hnotify, hintime]
      exact h.undispatched (hdispatched ▸ hfalse) }

/-- `pendingComplete` goes on. -/
theorem Prompt.ofNotify (h : c.Prompt) (hne : d.notify ≠ .none) (hdispatched : d.dispatched = true)
    (hintime : d.inTime = c.inTime) (hregistered : d.registered = c.registered) (hplace : d.place = c.place)
    (hanswering : c.Answering → d.Answering) : d.Prompt where
  untouched _ hnone := absurd hnone hne
  answering hin := hanswering (h.answering (hintime ▸ hin))
  returned hor := hplace.trans (h.returned (hintime ▸ hregistered ▸ hor))
  undispatched hfalse := by
    rw [hdispatched] at hfalse
    cases hfalse

end Call

namespace ThreadPc

variable {ι : Type}

/-- The thread expires calls, and none whose reply was in time. -/
def Expires (calls : ι → Call) : ThreadPc ι → Prop
  | .idle => True
  | .completes reason _ call rest =>
    reason = .expire ∧ ∀ other ∈ call :: rest, (calls other).expired ∧ (calls other).inTime = false
  | .closes => False

theorem Expires.mono {calls calls' : ι → Call} {pc : ThreadPc ι} (h : pc.Expires calls)
    (himp : ∀ call, (calls call).expired ∧ (calls call).inTime = false → (calls' call).expired ∧
    (calls' call).inTime = false) :
    pc.Expires calls' := by
  cases pc with
  | idle => trivial
  | completes reason stage call rest => exact ⟨h.1, fun other hmem => himp other (h.2 other hmem)⟩
  | closes => cases h

theorem next_expires {calls : ι → Call} {rest : List ι} (h : ∀ other ∈ rest, (calls other).expired ∧
    (calls other).inTime = false) :
    (next .expire rest).Expires calls := by
  cases rest with
  | nil => trivial
  | cons call rest => exact ⟨rfl, h⟩

end ThreadPc

namespace Calls

variable {ι κ : Type} [DecidableEq ι] [DecidableEq κ] [Fintype ι] [Fintype κ] {limits : CallLimits}
    {s s' : Calls ι κ}

/-- No cancel, no disconnect and no shutdown. -/
def Uninterrupted (_ : Calls ι κ) : Action ι κ → Prop
  | .cancelCall .. | .failPendingOnDisconnect .. | .shutdown .. => False
  | _ => True

/-- And the notify function is registered when the reply is dispatched. -/
def Registered (s : Calls ι κ) (action : Action ι κ) : Prop :=
  s.Uninterrupted action ∧ ∀ call, action = .reply call → (s.call call).registered

structure InTime (s : Calls ι κ) : Prop where
  prompt : ∀ call, (s.call call).Prompt
  expires : ∀ thread, (s.thread thread).Expires s.call
  -- The dispatch worker is in one function at a time.
  alone : ∀ call, (s.call call).notify.active → ∀ thread, s.thread thread = .idle

omit [DecidableEq ι] [DecidableEq κ] [Fintype ι] [Fintype κ] in
theorem initial_inTime : ({} : Calls ι κ).InTime where
  prompt _ := ⟨fun _ _ _ => ⟨rfl, rfl, rfl⟩, nofun, fun h => by cases h <;> contradiction, fun _ => ⟨rfl, rfl⟩⟩
  expires _ := trivial
  alone _ := nofun

omit [DecidableEq κ] [Fintype ι] [Fintype κ] in
/-- One call moves. -/
theorem InTime.callStep (h : s.InTime) {call : ι} {c : Call} (hthread : s'.thread = s.thread)
    (hcall : s'.call = Function.update s.call call c) (hprompt : c.Prompt)
    (hlate : (s.call call).expired ∧ (s.call call).inTime = false → c.expired ∧ c.inTime = false)
    (halone : c.notify.active → ∀ thread, s.thread thread = .idle) : s'.InTime where
  prompt other := by
    rw [hcall, Function.update_apply]
    split
    · exact hprompt
    · exact h.prompt other
  expires thread := by
    rw [hthread]
    refine (h.expires thread).mono fun other hother => ?_
    rw [hcall, Function.update_apply]
    split
    · rename_i hsame
      exact hlate (hsame ▸ hother)
    · exact hother
  alone other hactive := by
    rw [hcall, Function.update_apply] at hactive
    rw [hthread]
    split at hactive
    · exact halone hactive
    · exact h.alone other hactive

omit [DecidableEq ι] [Fintype ι] [Fintype κ] in
/-- The dispatch worker moves, in `expireCalls`. -/
theorem InTime.threadStep (h : s.InTime) {thread : κ} {pc : ThreadPc ι}
    (hthread : s'.thread = Function.update s.thread thread pc)
    (hprompt : ∀ call, (s'.call call).Prompt) (hpc : pc.Expires s.call)
    (hlate : ∀ call, (s'.call call).expired = (s.call call).expired ∧ (s'.call call).inTime =
    (s.call call).inTime)
    (hidle : ∀ call, (s'.call call).notify.active = false) : s'.InTime where
  prompt := hprompt
  expires other := by
    have hold : (s'.thread other).Expires s.call := by
      rw [hthread, Function.update_apply]
      split
      · exact hpc
      · exact h.expires other
    refine hold.mono fun call hcall => ?_
    rw [(hlate call).1, (hlate call).2]
    exact hcall
  alone call hactive := by
    rw [hidle call] at hactive
    cases hactive

omit [DecidableEq κ] [Fintype ι] [Fintype κ] in
theorem InTime.submit {call : ι} {ok : Bool} (h : s.InTime) (hs : s.runSubmit limits call ok = some s') :
    s'.InTime := by
  have hprompt := h.prompt call
  have halone := h.alone call
  unfold runSubmit at hs
  dsimp only at hs
  split at hs <;> rename_i hplace
  case h_1 =>
    have hne : (s.call call).place ≠ .returned := by rw [hplace]; exact nofun
    have hregistered : (s.call call).registered → False := fun hregistered =>
      hne (hprompt.returned (.inr hregistered))
    split at hs
    · obtain rfl := Option.some.inj hs
      exact h.callStep rfl rfl
        (hprompt.ofSubmit hne rfl rfl rfl rfl (fun hr => (hregistered hr).elim) fun _ => ⟨by
          rw [hplace]; rfl, rfl, rfl, rfl⟩) id halone
    · obtain rfl := Option.some.inj hs
      exact h.callStep rfl rfl (hprompt.ofSubmit hne rfl rfl rfl rfl (fun hr => (hregistered hr).elim)
        nofun) id halone
  case h_2 =>
    have hne : (s.call call).place ≠ .returned := by rw [hplace]; exact nofun
    have hregistered : (s.call call).registered → False := fun hregistered =>
      hne (hprompt.returned (.inr hregistered))
    obtain rfl := Option.some.inj hs
    exact h.callStep rfl rfl
      (hprompt.ofSubmit hne rfl rfl rfl rfl (fun hr => (hregistered hr).elim) fun _ => ⟨by
        rw [hplace]; rfl, rfl, rfl, rfl⟩) id halone
  case h_3 =>
    have hne : (s.call call).place ≠ .returned := by rw [hplace]; exact nofun
    have hregistered : (s.call call).registered → False := fun hregistered =>
      hne (hprompt.returned (.inr hregistered))
    split at hs <;>
      (obtain rfl := Option.some.inj hs
       exact h.callStep rfl rfl
        (hprompt.ofSubmit hne rfl rfl rfl rfl (fun hr => (hregistered hr).elim) fun _ => ⟨by
          rw [hplace]; rfl, rfl, rfl, rfl⟩) id halone)
  case h_6 =>
    -- `set_notify`
    have hne : (s.call call).place ≠ .returned := by rw [hplace]; exact nofun
    have hregistered : (s.call call).registered → False := fun hregistered =>
      hne (hprompt.returned (.inr hregistered))
    obtain rfl := Option.some.inj hs
    cases ok
    · exact h.callStep rfl rfl (hprompt.ofSubmit hne rfl rfl rfl rfl (fun hr => (hregistered hr).elim)
        nofun) id halone
    · exact h.callStep rfl rfl
        (hprompt.ofSubmit hne rfl rfl rfl rfl (fun _ => rfl) fun _ => ⟨by rw [hplace]; rfl, rfl, rfl,
          rfl⟩) id halone
  case h_12 | h_13 | h_14 => cases hs
  all_goals
    have hne : (s.call call).place ≠ .returned := by rw [hplace]; exact nofun
    have hregistered : (s.call call).registered → False := fun hregistered =>
      hne (hprompt.returned (.inr hregistered))
    obtain rfl := Option.some.inj hs
    exact h.callStep rfl rfl (hprompt.ofSubmit hne rfl rfl rfl rfl (fun hr => (hregistered hr).elim)
      nofun) id halone

omit [DecidableEq κ] [Fintype ι] [Fintype κ] in
theorem InTime.notify {call : ι} (h : s.InTime) (hs : s.runNotify call = some s') : s'.InTime := by
  have hprompt := h.prompt call
  unfold runNotify at hs
  dsimp only at hs
  have hof {n : NotifyPc} (hnotify : (s.call call).notify = n) (hne : n ≠ .none) :
    (s.call call).dispatched = true :=
    eq_true_of_ne_false fun hfalse => hne (hnotify.symm.trans (hprompt.undispatched hfalse).1)
  have hanswers {n : NotifyPc} (hnotify : (s.call call).notify = n) (hactive : n.active) : ∀ thread,
    s.thread thread = .idle :=
    h.alone call (by rw [hnotify]; exact hactive)
  split at hs <;> rename_i hnotify
  case h_1 =>
    obtain rfl := Option.some.inj hs
    refine h.callStep rfl rfl (hprompt.ofNotify nofun (hof hnotify nofun) rfl rfl rfl fun hold =>
      ?_) id fun _ => hanswers hnotify rfl
    rw [Call.Answering, hnotify] at hold
    exact hold
  case h_2 =>
    split at hs
    all_goals
      obtain rfl := Option.some.inj hs
      refine h.callStep rfl rfl (hprompt.ofNotify nofun (hof hnotify nofun) rfl rfl rfl fun hold =>
        ?_) id fun _ => hanswers hnotify rfl
      rw [Call.Answering, hnotify] at hold
      exact ⟨hold.1, hold.2, rfl⟩
  case h_3 =>
    obtain rfl := Option.some.inj hs
    split
    · rename_i hcompleted
      refine h.callStep rfl rfl (hprompt.ofNotify nofun (hof hnotify nofun) rfl rfl rfl fun hold => ?_) id nofun
      rw [Call.Answering, hnotify] at hold
      rw [hold.1] at hcompleted
      cases hcompleted
    · refine h.callStep rfl rfl (hprompt.ofNotify nofun (hof hnotify nofun) rfl rfl rfl fun hold => ?_) id
        fun _ => hanswers hnotify rfl
      rw [Call.Answering, hnotify] at hold
      exact hold.2
  case h_4 =>
    obtain rfl := Option.some.inj hs
    refine h.callStep rfl rfl (hprompt.ofNotify nofun (hof hnotify nofun) rfl rfl rfl fun hold =>
      ?_) id fun _ => hanswers hnotify rfl
    rw [Call.Answering, hnotify] at hold
    exact hold
  case h_5 =>
    obtain rfl := Option.some.inj hs
    refine h.callStep rfl rfl (hprompt.ofNotify nofun (hof hnotify nofun) rfl rfl rfl fun hold => ?_) id nofun
    rw [Call.Answering, hnotify] at hold
    exact ⟨by rw [hold.1]; rfl, hold.2⟩
  case h_6 | h_7 => cases hs

omit [Fintype ι] [Fintype κ] in
theorem complete_call (s : Calls ι κ) (thread : κ) (reason : Reason) (stage : Stage) (call : ι)
    (rest : List ι) :
    (∀ other, other ≠ call → (s.complete thread reason stage call rest).call other = s.call other) ∧
      ((s.call call).Keeps ((s.complete thread reason stage call rest).call call)) := by
  have hset (t : Calls ι κ) (c : Call) (hcall : t.call = s.call) (hc : (s.call call).Keeps c) :
      (∀ other, other ≠ call → (t.set call c).call other = s.call other) ∧ (s.call call).Keeps
        ((t.set call c).call call) := by
    refine ⟨fun other hne => ?_, ?_⟩
    · show Function.update t.call call c other = s.call other
      rw [hcall, Function.update_of_ne hne]
    · show (s.call call).Keeps (Function.update t.call call c call)
      rw [Function.update_self]
      exact hc
  unfold Calls.complete
  dsimp only
  cases stage with
  | exchanges =>
    dsimp only
    split
    · exact ⟨fun _ _ => rfl, ⟨rfl, rfl, rfl, rfl, rfl, rfl⟩⟩
    · exact hset _ _ rfl ⟨rfl, rfl, rfl, rfl, rfl, rfl⟩
  | takes =>
    dsimp only
    split
    · exact hset _ _ rfl ⟨rfl, rfl, rfl, rfl, rfl, rfl⟩
    · exact ⟨fun _ _ => rfl, ⟨rfl, rfl, rfl, rfl, rfl, rfl⟩⟩
  | subs | unrefs => exact ⟨fun _ _ => rfl, ⟨rfl, rfl, rfl, rfl, rfl, rfl⟩⟩
  | sets | cancels | releases => exact hset _ _ rfl ⟨rfl, rfl, rfl, rfl, rfl, rfl⟩

omit [Fintype ι] [Fintype κ] in
/-- A thread in `expireCalls` goes on with the call, or with the next ones. -/
theorem complete_thread (s : Calls ι κ) (thread : κ) (stage : Stage) (call : ι) (rest : List ι) :
    ∃ pc, (s.complete thread .expire stage call rest).thread = Function.update s.thread thread pc ∧
      ((∃ stage', pc = .completes .expire stage' call rest) ∨ pc = .next .expire rest) := by
  unfold Calls.complete
  dsimp only
  cases stage with
  | exchanges =>
    dsimp only
    split
    · exact ⟨_, rfl, .inl ⟨.takes, if_neg nofun⟩⟩
    · exact ⟨_, rfl, .inl ⟨.subs, rfl⟩⟩
  | takes =>
    dsimp only
    split
    · exact ⟨_, rfl, .inl ⟨.cancels, rfl⟩⟩
    · exact ⟨_, rfl, .inr rfl⟩
  | subs => exact ⟨_, rfl, .inl ⟨.sets, rfl⟩⟩
  | sets => exact ⟨_, rfl, .inl ⟨.takes, rfl⟩⟩
  | cancels => exact ⟨_, rfl, .inl ⟨.unrefs, rfl⟩⟩
  | unrefs => exact ⟨_, rfl, .inl ⟨.releases, rfl⟩⟩
  | releases => exact ⟨_, rfl, .inr rfl⟩

omit [Fintype ι] [Fintype κ] in
theorem InTime.thread {thread : κ} (h : s.InTime) (hs : s.runThread thread = some s') : s'.InTime := by
  have hexpires := h.expires thread
  -- the dispatch worker is in `expireCalls`, and so in no notify function
  have hidle (hne : s.thread thread ≠ .idle) (call : ι) : (s.call call).notify.active = false :=
    eq_false_of_ne_true fun hactive => hne (h.alone call hactive thread)
  unfold runThread at hs
  split at hs <;> rename_i hthread
  · cases hs
  · rename_i reason stage call rest
    rw [hthread] at hexpires
    obtain ⟨rfl, hlate⟩ := hexpires
    obtain rfl := Option.some.inj hs
    obtain ⟨pc, hpc, hor⟩ := s.complete_thread thread stage call rest
    obtain ⟨hothers, hkeeps⟩ := s.complete_call thread .expire stage call rest
    have hsame (other : ι) : (s.call other).Keeps ((s.complete thread .expire stage call rest).call other) := by
      by_cases heq : other = call
      · exact heq ▸ hkeeps
      · rw [hothers other heq]
        exact ⟨rfl, rfl, rfl, rfl, rfl, rfl⟩
    refine h.threadStep hpc (fun other => ?_) ?_ (fun other => ⟨(hsame other).expired,
      (hsame other).inTime⟩) fun other => ?_
    · by_cases heq : other = call
      · obtain ⟨hexpired, hin⟩ := hlate other (heq ▸ List.mem_cons_self)
        have hother := hsame other
        exact (h.prompt other).ofLate (hother.expired.trans hexpired) (hother.inTime.trans hin)
          hother.place hother.registered
          hother.dispatched hother.notify
      · rw [hothers other heq]
        exact h.prompt other
    · obtain ⟨stage', rfl⟩ | rfl := hor
      · exact ⟨rfl, hlate⟩
      · exact ThreadPc.next_expires fun other hmem => hlate other (List.mem_cons_of_mem _ hmem)
    · rw [(hsame other).notify]
      exact hidle (by rw [hthread]; exact nofun) other
  · rw [hthread] at hexpires
    cases hexpires

omit [DecidableEq ι] [DecidableEq κ] [Fintype ι] [Fintype κ] in
theorem InTime.idle (h : s.InTime) (hidle : s.DispatchIdle) (thread : κ) : s.thread thread = .idle := by
  have hexpires := h.expires thread
  have hdispatching := hidle.1 thread
  cases hthread : s.thread thread with
  | idle => rfl
  | completes reason stage call rest =>
    rw [hthread] at hexpires hdispatching
    rw [hexpires.1] at hdispatching
    cases hdispatching
  | closes =>
    rw [hthread] at hexpires
    cases hexpires

theorem step_inTime {action : Action ι κ} (h : s.InTime) (hok : s.Registered action)
    (hs : s.step limits action = some s') :
    s'.InTime := by
  cases action with
  | submit call ok => exact h.submit hs
  | notify call => exact h.notify hs
  | thread thread => exact h.thread hs
  | cancelCall | failPendingOnDisconnect | shutdown => exact hok.1.elim
  | deadline call =>
    have hprompt := h.prompt call
    obtain rfl := Option.some.inj hs
    exact h.callStep rfl rfl ⟨nofun, hprompt.answering, hprompt.returned, hprompt.undispatched⟩
      (fun hlate => ⟨rfl, hlate.2⟩)
      (h.alone call)
  | reply call =>
    have hprompt := h.prompt call
    have hregistered := hok.2 call rfl
    have hplace := hprompt.returned (.inr hregistered)
    simp only [step] at hs
    split at hs
    · rename_i hdispatched
      have hnone := (hprompt.undispatched hdispatched.2.2).1
      obtain rfl := Option.some.inj hs
      refine h.callStep rfl rfl ⟨fun hfresh hnotify _ => ?_, fun hin => ?_, fun _ => hplace,
        nofun⟩ (fun hlate => ?_) fun _ => ?_
      · exact hprompt.untouched hfresh hnone (by rw [hplace]; rfl)
      · have hfresh : (s.call call).expired = false := by simpa using hin
        obtain ⟨hcompleted, hresults, hcancelled⟩ := hprompt.untouched hfresh hnone (by rw [hplace]; rfl)
        simp only [Call.Answering, hregistered, hcancelled, Bool.not_false, Bool.and_self, if_true]
        exact ⟨hcompleted, hresults⟩
      · exact ⟨hlate.1, by rw [hlate.1]; rfl⟩
      · exact h.idle hdispatched.1
    · cases hs
  | expireCalls thread calls =>
    simp only [step, start] at hs
    split at hs
    · split at hs
      · rename_i hcalls
        obtain ⟨hidle, -, hlisted⟩ := hcalls
        obtain rfl := Option.some.inj hs
        refine h.threadStep rfl h.prompt (ThreadPc.next_expires fun call hmem => ?_) (fun _ => ⟨rfl,
          rfl⟩) hidle.2
        obtain ⟨hlist, hexpired⟩ := hlisted call hmem
        refine ⟨hexpired, eq_false_of_ne_true fun hin => ?_⟩
        rw [(((h.prompt call).answering hin).done (hidle.2 call)).2] at hlist
        cases hlist
      · cases hs
    · cases hs

/-- The decoded reply, or its remote error, and nothing else; and when the dispatch worker has
returned, it is there. -/
theorem answered_in_time {call : ι} (h : ReachesBy (step limits) Registered ({} : Calls ι κ) s)
    (hin : (s.call call).inTime) :
    ((s.call call).results = [] ∨ (s.call call).results = [.answered]) ∧
      (s.DispatchIdle → (s.call call).results = [.answered]) := by
  have hinTime : s.InTime := h.invariant initial_inTime fun hold hok hs => step_inTime hold hok hs
  have hanswering := (hinTime.prompt call).answering hin
  exact ⟨hanswering.results, fun hidle => (hanswering.done (hidle.2 call)).1⟩

instance (s : Calls ι κ) : (action : Action ι κ) → Decidable (s.Uninterrupted action)
  | .cancelCall .. | .failPendingOnDisconnect .. | .shutdown .. => inferInstanceAs (Decidable False)
  | .submit .. | .deadline _ | .reply _ | .notify _ | .expireCalls .. | .thread _ =>
    inferInstanceAs (Decidable True)

instance (s : Calls ι κ) (action : Action ι κ) : Decidable (s.Registered action) :=
  match action with
  | .reply call => decidable_of_iff (s.call call).registered
      ⟨fun h => ⟨trivial, fun _ heq => Action.reply.inj heq ▸ h⟩, fun h => h.2 call rfl⟩
  | .cancelCall .. | .failPendingOnDisconnect .. | .shutdown .. => .isFalse fun h => h.1
  | .submit .. | .deadline _ | .notify _ | .expireCalls .. | .thread _ => .isTrue ⟨trivial, nofun⟩

/-- The deadline passes while the reply is handled. -/
def answering : List (Action Unit Unit) :=
  List.replicate 4 (Action.submit () true) ++ [Action.reply (), .deadline ()] ++ List.replicate 5
    (Action.notify ())

theorem answered_in_time_once :
    ∃ s : Calls Unit Unit, (s.call ()).inTime ∧ (s.call ()).expired ∧ (s.call ()).results = [.answered] := by
  have h : ReachesBy (step {}) Registered ({} : Calls Unit Unit) _ := .of_isSome_by answering (by
    decide +kernel)
  exact ⟨_, by decide +kernel, by decide +kernel, (answered_in_time h (by decide +kernel)).2 (by
    decide +kernel)⟩

/-- The reply is dispatched between `send_with_reply` and `set_notify`. -/
def losing : List (Action Unit Unit) :=
  List.replicate 3 (Action.submit () true) ++ [Action.reply (), .submit () true, .deadline (),
    .expireCalls () [()]] ++
    List.replicate 7 (Action.thread ())

theorem lost_in_time : ¬ ∀ s : Calls Unit Unit, ReachesBy (step {}) Uninterrupted {} s → (s.call ()).inTime →
    s.DispatchIdle → (s.call ()).results = [.answered] ∧ .timedOut ∉ (s.call ()).results := by
  intro h
  have hreaches : ReachesBy (step {}) Uninterrupted ({} : Calls Unit Unit) _ :=
    .of_isSome_by losing (by decide +kernel)
  have hanswered := (h _ hreaches (by decide +kernel) (by decide +kernel)).2
  revert hanswered
  decide +kernel

end Calls
end Dmn.Dbus
