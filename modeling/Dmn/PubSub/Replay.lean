import Dmn.PubSub.Publisher

/-!
# What a subscriber is notified of

Live publication asks the filter, and the replay of a registration does not.
What a subscriber is notified of is as documented in exactly those histories
in which every replayed item is one that the filter lets through.
-/

namespace Dmn.PubSub

open Dmn.Lib

variable {σ T E : Type} [DecidableEq σ]

def published (tasks : List (Task σ T)) : List T :=
  tasks.filterMap fun
    | .publish item => some item
    | _ => none

namespace Pub

variable (p : Pub σ T E)

omit [DecidableEq σ] in
/-- The history that is kept. -/
def retained (tasks : List (Task σ T)) : List T := (published tasks).rtake p.capacity

omit [DecidableEq σ] in
/-- The end of a history that a subscriber asks for; all of it for -1. -/
def replay (sub : σ) (items : List T) : List T :=
  if p.replayQuantity sub < 0 then items else items.rtake (p.replayQuantity sub).toNat

/-- Another publisher that differs in what is thrown, and for one subscriber in
what the filter says. -/
structure Alike (p' : Pub σ T E) (sub : σ) : Prop where
  capacity : p'.capacity = p.capacity
  replayQuantity : p'.replayQuantity = p.replayQuantity
  filter : ∀ u, u ≠ sub → p'.runFilter u = p.runFilter u

/-- The documented contract, at every point of a history. -/
structure Contract (tasks : List (Task σ T)) : Prop where
  exact : ∀ before sub mid after s s', tasks = before ++ .registerSubscriber sub :: mid ++ after →
    .unregisterSubscriber sub ∉ mid → exec p.step {} before = some s → s.pubs sub = false →
    exec p.step {} (before ++ .registerSubscriber sub :: mid) = some s' →
    s'.received sub = s.received sub ++
      (p.replay sub (p.retained before)).filter (p.Accepts sub) ++
      (published mid).filter (p.Accepts sub)
  filtered : ∀ before after s sub, tasks = before ++ after → exec p.step {} before = some s →
    ∀ x ∈ s.received sub, p.Accepts sub x
  again : ∀ before sub after s, tasks = before ++ .registerSubscriber sub :: after →
    exec p.step {} before = some s → s.pubs sub → p.step s (.registerSubscriber sub) = some s
  apart : ∀ p' sub before after s, p.Alike p' sub → tasks = before ++ after →
    exec p.step {} before = some s →
    ∃ s', exec p'.step {} before = some s' ∧ ∀ u, u ≠ sub → s'.received u = s.received u

/-- Every item that a registration replays is one that the filter lets through. -/
def ReplaysAccepted (tasks : List (Task σ T)) : Prop :=
  ∀ before sub after s, tasks = before ++ .registerSubscriber sub :: after →
    exec p.step {} before = some s → s.pubs sub = false →
    ∀ x ∈ p.replay sub (p.retained before), p.Accepts sub x

-- ---------------------------------------------------------------------------
-- One task
-- ---------------------------------------------------------------------------

structure Registry (tasks : List (Task σ T)) (s : State σ T E) : Prop where
  nodup : s.subscribers.Nodup
  pubs : ∀ u, s.pubs u ↔ u ∈ s.subscribers
  buffer : s.buffer = p.retained tasks

/-- What a task notifies a subscriber of. -/
def handed (s : State σ T E) (u : σ) : Task σ T → List T
  | .publish item => if s.pubs u ∧ p.Accepts u item then [item] else []
  | .registerSubscriber sub => if u = sub ∧ s.pubs u = false then p.replay u s.buffer else []
  | .unregisterSubscriber _ | .takeCallbackFailures => []

variable {p} {s s' : State σ T E} {tasks : List (Task σ T)} {task : Task σ T}

omit [DecidableEq σ] in
theorem skipped_replay (sub : σ) :
    s.buffer.drop (p.numberOfItemsToBeSkipped s sub) = p.replay sub s.buffer := by
  unfold numberOfItemsToBeSkipped replay List.rtake
  split
  · rename_i h
    simp [h]
  · split
    · rename_i h
      rw [if_neg (by omega)]
    · split
      · rfl
      · rw [show s.buffer.length - (p.replayQuantity sub).toNat = 0 by omega]

theorem step_received (h : p.Registry tasks s) (hs : p.step s task = some s') (u : σ) :
    s'.received u = s.received u ++ p.handed s u task := by
  cases task with
  | publish item =>
    obtain rfl := Option.some.inj hs
    obtain ⟨-, -, -, hreceived⟩ := foldl_deliver (p := p) item s.subscribers h.nodup
      ({ s with buffer := p.trim (s.buffer ++ [item]) }, none)
    refine (hreceived u).trans ?_
    simp only [handed, h.pubs u]
  | registerSubscriber sub =>
    obtain rfl := Option.some.inj hs
    simp only [handed]
    unfold registerSubscriber
    split
    · rename_i hpubs
      have hne : ¬(u = sub ∧ s.pubs u = false) := by
        rintro ⟨rfl, hfalse⟩
        simp [hpubs] at hfalse
      rw [if_neg hne, List.append_nil]
    · rename_i hpubs
      dsimp only
      rw [skipped_replay, (foldl_notifySub (p := p) sub _ _).received]
      by_cases hu : u = sub
      · subst hu
        simp [hpubs]
      · simp [hu]
  | unregisterSubscriber sub =>
    simp only [step, unregisterSubscriber] at hs
    split at hs
    · obtain rfl := Option.some.inj hs
      exact (List.append_nil _).symm
    · cases hs
  | takeCallbackFailures =>
    obtain rfl := Option.some.inj hs
    exact (List.append_nil _).symm

omit [DecidableEq σ] in
theorem trim_eq (l : List T) : p.trim l = l.rtake p.capacity := by
  unfold trim List.rtake
  split
  · rfl
  · rw [show l.length - p.capacity = 0 by omega, List.drop_zero]

omit [DecidableEq σ] in
/-- Trimming after each publication keeps the last items of all. -/
theorem trim_rtake (l : List T) (item : T) :
    p.trim (l.rtake p.capacity ++ [item]) = (l ++ [item]).rtake p.capacity := by
  rw [trim_eq]
  cases p.capacity with
  | zero => simp
  | succ n =>
    rw [List.rtake_concat_succ, List.rtake_concat_succ]
    congr 1
    unfold List.rtake
    rw [List.drop_drop, List.length_drop]
    congr 1
    omega

/-- What a task makes of the subscribers, whatever the callbacks do. -/
def roster (r : List σ × (σ → Bool)) : Task σ T → List σ × (σ → Bool)
  | .registerSubscriber sub => if r.2 sub then r else (r.1 ++ [sub], Function.update r.2 sub true)
  | .unregisterSubscriber sub => (r.1.filter (· ≠ sub), Function.update r.2 sub false)
  | .publish _ | .takeCallbackFailures => r

theorem step_roster (h : s.subscribers.Nodup) (hs : p.step s task = some s') :
    (s'.subscribers, s'.pubs) = roster (s.subscribers, s.pubs) task := by
  cases task with
  | publish item =>
    obtain rfl := Option.some.inj hs
    obtain ⟨-, hsubscribers, hpubs, -⟩ := foldl_deliver (p := p) item s.subscribers h
      ({ s with buffer := p.trim (s.buffer ++ [item]) }, none)
    exact Prod.ext hsubscribers hpubs
  | registerSubscriber sub =>
    obtain rfl := Option.some.inj hs
    unfold registerSubscriber
    simp only [roster]
    split
    · rfl
    · have hsame := foldl_notifySub (p := p) sub         (s.buffer.drop (p.numberOfItemsToBeSkipped s sub))
        { s with
          pubs := Function.update s.pubs sub true
          subscribers := s.subscribers ++ [sub] }
      exact Prod.ext hsame.subscribers hsame.pubs
  | unregisterSubscriber sub =>
    simp only [Pub.step, unregisterSubscriber] at hs
    split at hs
    · exact Option.some.inj hs ▸ rfl
    · cases hs
  | takeCallbackFailures => exact Option.some.inj hs ▸ rfl

theorem step_buffer (h : s.subscribers.Nodup) (hs : p.step s task = some s')
    (hbuffer : s.buffer = p.retained tasks) : s'.buffer = p.retained (tasks ++ [task]) := by
  have hother : (∀ item, task ≠ .publish item) → p.retained (tasks ++ [task]) = p.retained tasks := by
    intro hne
    cases task with
    | publish item => exact absurd rfl (hne item)
    | _ => simp [retained, published]
  cases task with
  | publish item =>
    obtain rfl := Option.some.inj hs
    obtain ⟨hlast, -, -, -⟩ := foldl_deliver (p := p) item s.subscribers h
      ({ s with buffer := p.trim (s.buffer ++ [item]) }, none)
    refine hlast.trans ?_
    dsimp only
    rw [hbuffer, retained, trim_rtake]
    simp [retained, published]
  | registerSubscriber sub =>
    obtain rfl := Option.some.inj hs
    rw [hother nofun, ← hbuffer]
    unfold registerSubscriber
    split
    · rfl
    · exact (foldl_notifySub (p := p) sub _ _).buffer
  | unregisterSubscriber sub =>
    rw [hother nofun, ← hbuffer]
    simp only [Pub.step, unregisterSubscriber] at hs
    split at hs
    · exact Option.some.inj hs ▸ rfl
    · cases hs
  | takeCallbackFailures =>
    rw [hother nofun, ← hbuffer]
    exact Option.some.inj hs ▸ rfl

omit [DecidableEq σ] in
theorem Registry.empty : p.Registry [] ({} : State σ T E) where
  nodup := .nil
  pubs u := by simp
  buffer := by simp [retained, published]

theorem Registry.step (h : p.Registry tasks s) (hs : p.step s task = some s') :
    p.Registry (tasks ++ [task]) s' := by
  obtain ⟨hsubscribers, hpubs⟩ := Prod.mk.inj (step_roster h.nodup hs)
  have hroster : (roster (s.subscribers, s.pubs) task).1.Nodup ∧
      ∀ u, (roster (s.subscribers, s.pubs) task).2 u ↔ u ∈ (roster (s.subscribers, s.pubs) task).1 := by
    cases task with
    | publish item | takeCallbackFailures => exact ⟨h.nodup, h.pubs⟩
    | registerSubscriber sub =>
      simp only [roster]
      split
      · exact ⟨h.nodup, h.pubs⟩
      · rename_i hnot
        have hnew : sub ∉ s.subscribers := fun hm => hnot ((h.pubs sub).mpr hm)
        refine ⟨List.nodup_append.mpr ⟨h.nodup, List.nodup_singleton _, fun x hx y hy => ?_⟩, fun u => ?_⟩
        · rw [List.mem_singleton.mp hy]
          exact fun heq => hnew (heq ▸ hx)
        · by_cases hu : u = sub
          · simp [hu]
          · simp [hu, h.pubs u]
    | unregisterSubscriber sub =>
      refine ⟨h.nodup.filter _, fun u => ?_⟩
      by_cases hu : u = sub
      · simp [roster, hu]
      · simp [roster, hu, h.pubs u]
  exact ⟨hsubscribers ▸ hroster.1, fun u => by rw [hsubscribers, hpubs]; exact hroster.2 u,
    step_buffer h.nodup hs h.buffer⟩

-- ---------------------------------------------------------------------------
-- A history
-- ---------------------------------------------------------------------------

theorem exec_concat {s₀ : State σ T E} :
    exec p.step s₀ (tasks ++ [task]) = some s' ↔
      ∃ s, exec p.step s₀ tasks = some s ∧ p.step s task = some s' := by
  rw [exec_append, Option.bind_eq_some_iff]
  simp [exec]

theorem Registry.exec (hs : exec p.step {} tasks = some s) : p.Registry tasks s := by
  induction tasks using List.reverseRecOn generalizing s with
  | nil => exact Option.some.inj hs ▸ .empty
  | append_singleton tasks task ih =>
    obtain ⟨s₀, hs₀, hs⟩ := exec_concat.mp hs
    exact (ih hs₀).step hs

/-- A subscriber that is not unregistered stays registered. -/
theorem step_pubs (h : p.Registry tasks s) (hs : p.step s task = some s') (hpubs : s.pubs sub)
    (htask : task ≠ .unregisterSubscriber sub) : s'.pubs sub := by
  rw [(Prod.mk.inj (step_roster h.nodup hs)).2]
  cases task with
  | publish item | takeCallbackFailures => exact hpubs
  | registerSubscriber u =>
    dsimp only
    split
    · exact hpubs
    · by_cases hu : sub = u
      · simp [hu]
      · simpa [hu] using hpubs
  | unregisterSubscriber u =>
    have hne : sub ≠ u := fun heq => htask (heq ▸ rfl)
    simpa [roster, hne] using hpubs

/-- A subscriber that registers is registered. -/
theorem register_pubs (h : p.Registry tasks s) (hs : p.step s (.registerSubscriber sub) = some s') :
    s'.pubs sub := by
  rw [(Prod.mk.inj (step_roster h.nodup hs)).2]
  dsimp only
  split
  · assumption
  · simp

/-- After a registration: the replay, and then what is published and accepted. -/
theorem exec_received {before mid : List (Task σ T)} (h : p.Registry before s)
    (hs : exec p.step {} before = some s)
    (hpubs : s.pubs sub = false) (hmid : .unregisterSubscriber sub ∉ mid)
    (hs' : exec p.step {} (before ++ .registerSubscriber sub :: mid) = some s') :
    s'.pubs sub ∧ s'.received sub = s.received sub ++ p.replay sub (p.retained before) ++
      (published mid).filter (p.Accepts sub) := by
  induction mid using List.reverseRecOn generalizing s' with
  | nil =>
    obtain ⟨s₁, hs₁, hstep⟩ := exec_concat.mp hs'
    obtain rfl := Option.some.inj (hs₁.symm.trans hs)
    have hreceived := step_received h hstep sub
    refine ⟨register_pubs h hstep, ?_⟩
    rw [hreceived, handed, if_pos ⟨rfl, hpubs⟩, h.buffer]
    simp [published]
  | append_singleton mid task ih =>
    rw [← List.cons_append, ← List.append_assoc] at hs'
    obtain ⟨s₁, hs₁, hstep⟩ := exec_concat.mp hs'
    obtain ⟨hpubs₁, hreceived⟩ := ih (fun hm => hmid (List.mem_append_left _ hm)) hs₁
    have hregistry := Registry.exec hs₁
    have htask : task ≠ .unregisterSubscriber sub := by
      rintro rfl
      exact hmid (List.mem_append_right _ (List.mem_singleton.mpr rfl))
    refine ⟨step_pubs hregistry hstep hpubs₁ htask, ?_⟩
    rw [step_received hregistry hstep sub, hreceived, List.append_assoc, published, published,
      List.filterMap_append, List.filter_append]
    congr 2
    cases task with
    | publish item => by_cases hacc : p.Accepts sub item <;> simp [handed, hpubs₁, hacc]
    | registerSubscriber u =>
      have hne : ¬(sub = u ∧ s₁.pubs sub = false) := by simp [hpubs₁]
      simp [handed, hpubs₁]
    | unregisterSubscriber u | takeCallbackFailures => rfl

theorem step_isSome (s : State σ T E) (task : Task σ T) :
    (p.step s task).isSome ↔ ∀ sub, task = .unregisterSubscriber sub → s.pubs sub := by
  cases task with
  | unregisterSubscriber sub =>
    simp only [Pub.step, unregisterSubscriber]
    split <;> simp [*]
  | _ => simp [Pub.step]

omit [DecidableEq σ] in
theorem Alike.accepts {p' : Pub σ T E} (h : p.Alike p' sub) (hu : u ≠ sub) :
    p'.Accepts u = p.Accepts u := by
  funext x
  rw [Accepts, Accepts, h.filter u hu]

/-- What is thrown, and what the filter says for one subscriber, changes
nothing for the others. -/
theorem Alike.exec {p' : Pub σ T E} (h : p.Alike p' sub) (hs : exec p.step {} tasks = some s) :
    ∃ s', exec p'.step {} tasks = some s' ∧ s'.subscribers = s.subscribers ∧ s'.pubs = s.pubs ∧
      ∀ u, u ≠ sub → s'.received u = s.received u := by
  induction tasks using List.reverseRecOn generalizing s with
  | nil =>
    obtain rfl := Option.some.inj hs
    exact ⟨{}, rfl, rfl, rfl, fun _ _ => rfl⟩
  | append_singleton tasks task ih =>
    obtain ⟨s₁, hs₁, hstep⟩ := exec_concat.mp hs
    obtain ⟨s₂, hs₂, hsubscribers, hpubs, hreceived⟩ := ih hs₁
    have h₁ := Registry.exec hs₁
    have h₂ := Registry.exec hs₂
    have hbuffer : s₂.buffer = s₁.buffer := by
      rw [h₁.buffer, h₂.buffer, retained, retained, h.capacity]
    obtain ⟨s', hstep'⟩ := Option.isSome_iff_exists.mp
      ((step_isSome (p := p') s₂ task).mpr fun v hv => by
        rw [hpubs]
        exact (step_isSome s₁ task).mp (Option.isSome_iff_exists.mpr ⟨s, hstep⟩) v hv)
    have hroster := (step_roster h₂.nodup hstep').trans
      ((by rw [hsubscribers, hpubs] : roster (s₂.subscribers, s₂.pubs) task = _).trans
        (step_roster h₁.nodup hstep).symm)
    obtain ⟨hsubscribers', hpubs'⟩ := Prod.mk.inj hroster
    refine ⟨s', exec_concat.mpr ⟨s₂, hs₂, hstep'⟩, hsubscribers', hpubs', fun u hu => ?_⟩
    rw [step_received h₂ hstep' u, step_received h₁ hstep u, hreceived u hu]
    congr 1
    cases task with
    | publish item => simp only [handed, hpubs, h.accepts hu]
    | registerSubscriber v => simp only [handed, hpubs, hbuffer, replay, h.replayQuantity]
    | unregisterSubscriber v | takeCallbackFailures => rfl

/-- Where the replays are accepted, a subscriber has received only what it accepts. -/
theorem ReplaysAccepted.filtered {before after : List (Task σ T)} (h : p.ReplaysAccepted (before ++ after))
    (hs : exec p.step {} before = some s) : ∀ x ∈ s.received sub, p.Accepts sub x := by
  induction before using List.reverseRecOn generalizing s after with
  | nil =>
    obtain rfl := Option.some.inj hs
    exact nofun
  | append_singleton before task ih =>
    rw [List.append_assoc] at h
    obtain ⟨s₁, hs₁, hstep⟩ := exec_concat.mp hs
    intro x hx
    rw [step_received (Registry.exec hs₁) hstep, List.mem_append] at hx
    rcases hx with hx | hx
    · exact ih h hs₁ x hx
    · cases task with
      | publish item =>
        simp only [handed] at hx
        split at hx
        · rename_i hacc
          rw [List.mem_singleton.mp hx]
          exact hacc.2
        · cases hx
      | registerSubscriber v =>
        simp only [handed] at hx
        split at hx
        · rename_i hnew
          obtain ⟨rfl, hpubs⟩ := hnew
          rw [(Registry.exec hs₁).buffer] at hx
          exact h before sub after s₁ rfl hs₁ hpubs x hx
        · cases hx
      | unregisterSubscriber v | takeCallbackFailures => cases hx

/-- The contract holds of exactly those histories in which every replayed item
is one that the filter lets through. -/
theorem contract (p : Pub σ T E) (tasks : List (Task σ T)) :
    p.Contract tasks ↔ p.ReplaysAccepted tasks := by
  constructor
  · intro h before sub after s htasks hs hpubs x hx
    obtain ⟨s', hs'⟩ : ∃ s', exec p.step {} (before ++ [.registerSubscriber sub]) = some s' :=
      ⟨_, exec_concat.mpr ⟨s, hs, rfl⟩⟩
    have hexact := h.exact before sub [] after s s' (by simp [htasks]) List.not_mem_nil hs hpubs hs'
    have hreceived := (exec_received (Registry.exec hs) hs hpubs List.not_mem_nil hs').2
    rw [hexact] at hreceived
    have hfilter : (p.replay sub (p.retained before)).filter (p.Accepts sub) =
        p.replay sub (p.retained before) := by
      simpa [published] using hreceived
    exact List.filter_eq_self.mp hfilter x hx
  · intro h
    refine ⟨fun before sub mid after s s' htasks hmid hs hpubs hs' => ?_,
      fun before after s sub htasks hs => ?_, fun before sub after s htasks hs hpubs => ?_,
      fun p' sub before after s halike htasks hs => ?_⟩
    · rw [(exec_received (Registry.exec hs) hs hpubs hmid hs').2]
      rw [List.filter_eq_self.mpr (h before sub (mid ++ after) s (by simp [htasks]) hs hpubs)]
    · subst htasks
      exact h.filtered hs
    · simp [step, registerSubscriber, hpubs]
    · obtain ⟨s', hs', -, -, hreceived⟩ := halike.exec hs
      exact ⟨s', hs', hreceived⟩

/-- Only even items are let through. -/
def evens : Pub Nat Nat Unit := { filterFn := some fun _ item => .ok (item % 2 == 0) }

theorem contract_oddReplayed : ¬evens.Contract [.publish 1, .registerSubscriber 0] := by
  intro h
  have hfiltered := h.filtered [.publish 1, .registerSubscriber 0] []
    ((exec evens.step {} [.publish 1, .registerSubscriber 0]).get (by decide)) 0 rfl
    (Option.some_get _).symm 1 (by decide)
  revert hfiltered
  decide

end Pub
end Dmn.PubSub
