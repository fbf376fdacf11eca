import Dmn.Bluez.Index

/-!
# What a snapshot includes

While `snapshot` runs, the signals are staged, and a successful one applies
all of them to what the reply says. The reset in `emit` ends the staging of a
snapshot that it does not make fail.
-/

namespace Dmn.Bluez

open Dmn.Lib

/-- The signals are applied one after the other. -/
def applySignals (signals : List Signal) (i : Inventory) : Inventory :=
  signals.foldl (fun i signal => (applySignal signal ⟨i, []⟩).inventory) i

theorem replay_inventory {signals : List Signal} {i j : Inventory} {ownerLost : Bool}
    (h : replay signals i = .ok ownerLost j) : j = applySignals signals i := by
  induction signals generalizing i ownerLost with
  | nil =>
    obtain ⟨-, rfl⟩ := EStateM.Result.ok.inj h
    rfl
  | cons signal signals ih =>
    unfold replay at h
    obtain ⟨lost, -, h⟩ := reads_bind_eq_ok h
    obtain ⟨_, _, hmodify, h⟩ := bind_eq_ok h
    obtain ⟨-, rfl⟩ := EStateM.Result.ok.inj hmodify
    obtain ⟨later, k, hlater, hpure⟩ := bind_eq_ok h
    obtain ⟨-, rfl⟩ := EStateM.Result.ok.inj hpure
    exact ih hlater

theorem reload_inventory {objects : Value} {staged : List Signal} {i j : Inventory} {ownerLost : Bool}
    (h : reload objects staged i = .ok ownerLost j) :
    ∃ loaded, load objects i.devices i = .ok () loaded ∧ j = applySignals staged loaded := by
  obtain ⟨_, loaded, hload, hreplay⟩ := bind_eq_ok (m := load objects i.devices) h
  exact ⟨loaded, hload, replay_inventory hreplay⟩

namespace Client

variable {c c' : Client}

/-- What a snapshot returns when it includes the signals. -/
def Includes (c : Client) (objects : Value) (signals : List Signal) (inventory : Inventory) : Prop :=
  ∃ loaded, load objects c.inventory.devices c.inventory = .ok () loaded ∧
    inventory = { applySignals signals loaded with available := true }

theorem finish_includes {droppedBefore droppedAfter : Nat} {objects : Value} {inventory : Inventory}
    (h : (c.finish droppedBefore droppedAfter objects).2 = .ok inventory) :
    c.stageOverflow = false ∧ c.Includes objects c.stagedSignals inventory ∧
      (c.finish droppedBefore droppedAfter objects).1.inventory = inventory := by
  unfold finish at h ⊢
  split at h
  · cases h
  · rename_i hdropped
    rw [if_neg hdropped]
    split at h
    · cases h
    · rename_i hoverflow
      rw [if_neg hoverflow]
      split at h
      · cases h
      · rename_i lost loaded heq
        split at h
        · cases h
        · rename_i hlost
          rw [if_neg hlost]
          obtain rfl := Except.ok.inj h
          obtain ⟨loaded, hload, rfl⟩ := reload_inventory heq
          exact ⟨eq_false_of_ne_true hoverflow, ⟨loaded, hload, rfl⟩, rfl⟩

/-- The next step is the reset of `emit`. -/
def resets (c : Client) : Action → Bool
  | .callback => match c.callback with
    | .emits .reset _ => true
    | _ => false
  | .recovery => match c.recovery with
    | .emits .reset => true
    | _ => false
  | _ => false

/-- No reset of `emit` falls between the first section of `snapshot` and its last one. -/
def Undisturbed (c : Client) (action : Action) : Prop := c.snapshot.running → c.resets action = false

instance (c : Client) (action : Action) : Decidable (c.Undisturbed action) :=
  inferInstanceAs (Decidable (c.snapshot.running → c.resets action = false))

/-- The signals are staged, or the snapshot is going to fail. -/
def Staged (c : Client) : Prop :=
  c.snapshot.running → c.stageOverflow ∨ c.loading ∧ c.stagedSignals = c.before ++ c.arrived

/-- The step leaves the staging alone. -/
theorem Staged.frame (h : c.Staged) (hrunning : c'.snapshot.running → c.snapshot.running)
    (hloading : c'.loading = c.loading) (hoverflow : c'.stageOverflow = c.stageOverflow)
    (hstaged : c'.stagedSignals = c.stagedSignals) (hbefore : c'.before = c.before)
    (harrived : c'.arrived = c.arrived) :
    c'.Staged := fun hrun => by
  rw [hloading, hoverflow, hstaged, hbefore, harrived]
  exact h (hrunning hrun)

theorem begin_staged (c : Client) (caller : Caller) : (c.begin caller).Staged := fun _ =>
  .inr ⟨rfl, (List.append_nil _).symm⟩

theorem runSnapshot_staged {result : Except Error (List Value)} (h : c.Staged)
    (hs : c.runSnapshot result = some c') : c'.Staged := by
  unfold runSnapshot at hs
  split at hs
  · cases hs
  · rename_i heq
    obtain rfl := Option.some.inj hs
    exact h.frame (fun _ => heq ▸ rfl) rfl rfl rfl rfl rfl
  · rename_i heq
    obtain rfl := Option.some.inj hs
    exact h.frame (fun _ => heq ▸ rfl) rfl rfl rfl rfl rfl
  · rename_i heq
    obtain rfl := Option.some.inj hs
    exact h.frame (fun _ => heq ▸ rfl) rfl rfl rfl rfl rfl
  · split at hs
    · cases hs
    · obtain rfl := Option.some.inj hs
      exact nofun
  · rename_i heq
    split at hs
    · cases hs
    · obtain rfl := Option.some.inj hs
      exact h.frame (fun _ => heq ▸ rfl) rfl rfl rfl rfl rfl
  · rename_i heq
    obtain rfl := Option.some.inj hs
    exact h.frame (fun _ => heq ▸ rfl) rfl rfl rfl rfl rfl
  · obtain rfl := Option.some.inj hs
    exact nofun

/-- A section of `onSignal` stages its signal, or the snapshot is going to fail. -/
theorem process_staged (h : c.Staged) (hrunning : c.snapshot.running) (signal : Signal) (droppedSignals : Nat) :
    (c.process signal droppedSignals).1.stageOverflow ∨
      (c.process signal droppedSignals).1.loading ∧
        (c.process signal droppedSignals).1.stagedSignals = c.before ++ (c.arrived ++ [signal]) := by
  unfold process
  split
  · dsimp only
    split
    · exact .inl rfl
    · rename_i hloading
      exact .inl ((h hrunning).resolve_right fun hstaged => hloading hstaged.1)
  · split
    · rename_i hloading
      split
      · exact .inl rfl
      · exact (h hrunning).imp id fun hstaged => ⟨hloading, by rw [← List.append_assoc, ← hstaged.2]⟩
    · rename_i hloading
      exact .inl ((h hrunning).resolve_right fun hstaged => hloading hstaged.1)

theorem process_ghosts (c : Client) (signal : Signal) (droppedSignals : Nat) :
    (c.process signal droppedSignals).1.snapshot = c.snapshot ∧
      (c.process signal droppedSignals).1.before = c.before ∧
      (c.process signal droppedSignals).1.arrived = c.arrived := by
  unfold process
  split
  · dsimp only
    split <;> exact ⟨rfl, rfl, rfl⟩
  · split
    · split <;> exact ⟨rfl, rfl, rfl⟩
    · exact ⟨rfl, rfl, rfl⟩

/-- Only a reset of `emit` touches the staging. -/
theorem runEmit_staged (h : c.Staged) (pc : EmitPc) (hpc : c.snapshot.running → pc ≠ .reset) :
    (c.runEmit pc).1.Staged := by
  unfold runEmit
  split
  · split <;> exact h.frame id rfl rfl rfl rfl rfl
  · exact fun hrunning => absurd rfl (hpc hrunning)
  · exact h.frame id rfl rfl rfl rfl rfl

theorem runCallback_staged (h : c.Staged) (hok : c.Undisturbed .callback) (hs : c.runCallback = some c') :
    c'.Staged := by
  unfold runCallback at hs
  split at hs
  · cases hs
  · obtain rfl := Option.some.inj hs
    exact h.frame id rfl rfl rfl rfl rfl
  · rename_i signal droppedSignals _
    split at hs
    · cases hs
    · obtain ⟨hsnapshot, hbefore, harrived⟩ := process_ghosts c signal droppedSignals
      have hstaged := fun hrunning => process_staged h hrunning signal droppedSignals
      generalize c.process signal droppedSignals = processed at hsnapshot hbefore harrived hstaged hs
      obtain ⟨d, events⟩ := processed
      obtain rfl := Option.some.inj hs
      intro hrunning
      have hrunning' : d.snapshot.running = true := hrunning
      dsimp only
      rw [if_pos hrunning', hbefore, harrived]
      exact hstaged (hsnapshot ▸ hrunning')
  · obtain rfl := Option.some.inj hs
    exact h.frame id rfl rfl rfl rfl rfl
  · rename_i pc events heq
    obtain rfl := Option.some.inj hs
    have hstaged := runEmit_staged h pc fun hrunning hpc => by
      have hreset := hok hrunning
      rw [resets, heq, hpc] at hreset
      cases hreset
    exact hstaged.frame id rfl rfl rfl rfl rfl

theorem runRecovery_staged (h : c.Staged) (hok : c.Undisturbed .recovery) (hs : c.runRecovery = some c') :
    c'.Staged := by
  unfold runRecovery at hs
  split at hs
  · split at hs
    · obtain rfl := Option.some.inj hs
      exact h.frame id rfl rfl rfl rfl rfl
    · cases hs
  · split at hs
    · obtain rfl := Option.some.inj hs
      exact (begin_staged c .recovery).frame id rfl rfl rfl rfl rfl
    · cases hs
  · cases hs
  · rename_i pc heq
    obtain rfl := Option.some.inj hs
    have hstaged := runEmit_staged h pc fun hrunning hpc => by
      have hreset := hok hrunning
      rw [resets, heq, hpc] at hreset
      cases hreset
    exact hstaged.frame id rfl rfl rfl rfl rfl

theorem step_staged {action : Action} (h : c.Staged) (hok : c.Undisturbed action)
    (hs : c.step action = some c') :
    c'.Staged := by
  cases action with
  | snapshot =>
    simp only [Client.step] at hs
    split at hs
    · obtain rfl := Option.some.inj hs
      exact begin_staged c .application
    · cases hs
  | run result => exact runSnapshot_staged h hs
  | signal signal =>
    simp only [Client.step] at hs
    split at hs
    · obtain rfl := Option.some.inj hs
      exact h.frame id rfl rfl rfl rfl rfl
    · cases hs
  | callback => exact runCallback_staged h hok hs
  | recovery => exact runRecovery_staged h hok hs
  | event =>
    simp only [Client.step] at hs
    split at hs
    · cases hs
    · obtain rfl := Option.some.inj hs
      exact h.frame id rfl rfl rfl rfl rfl
  | _ =>
    obtain rfl := Option.some.inj hs
    exact h.frame id rfl rfl rfl rfl rfl

/-- A snapshot that succeeds includes what has arrived while it ran, in that order. -/
theorem snapshot_includes (h : ReachesBy step Undisturbed {} c)
    {droppedBefore droppedAfter : Nat} {objects : Value} {inventory : Inventory}
    (hlast : c.snapshot = .finishes droppedBefore droppedAfter objects)
    (hok : (c.finish droppedBefore droppedAfter objects).2 = .ok inventory) :
    c.Includes objects (c.before ++ c.arrived) inventory ∧
      ∀ result, (c.step (.run result)).map (·.inventory) = some inventory := by
  have hstaged : c.Staged := h.invariant nofun fun hold hok hs => step_staged hold hok hs
  obtain ⟨hoverflow, hincludes, hinventory⟩ := finish_includes hok
  have hrunning : c.snapshot.running := by rw [hlast]; rfl
  obtain ⟨-, hall⟩ := (hstaged hrunning).resolve_left (by rw [hoverflow]; exact nofun)
  refine ⟨hall ▸ hincludes, fun result => ?_⟩
  simp only [step, runSnapshot, hlast, Option.map_some]
  exact congrArg some hinventory

def deviceAdded : Signal := interfaceAdded devicePath kDevice (addressed "D")

def noObjects : Value := .dictionary "o" "a{sa{sv}}" []

/-- A snapshot up to its last section, and a device is added in between. -/
def stages : List Action :=
  [.snapshot, .run (.ok []), .run (.ok [noObjects]), .signal deviceAdded, .callback, .callback,
    .run (.ok []), .run (.ok []), .run (.ok [])]

/-- Where `stages` leads to. -/
def staging : Client :=
  { stagedSignals := [deviceAdded], snapshot := .finishes 0 0 noObjects, arrived := [deviceAdded] }

theorem snapshot_includes_staged :
    ∃ inventory, (staging.finish 0 0 noObjects).2 = .ok inventory ∧ staging.Includes noObjects
      [deviceAdded] inventory := by
  have hstages : execBy step Undisturbed {} stages = some staging := rfl
  have h : ReachesBy step Undisturbed {} staging := .of_execBy hstages
  cases hok : (staging.finish 0 0 noObjects).2 with
  | ok inventory => exact ⟨inventory, rfl, (snapshot_includes h rfl hok).1⟩
  | error error =>
    have hsome : (staging.finish 0 0 noObjects).2.toBool = true := by decide +kernel
    rw [hok] at hsome
    cases hsome

-- ---------------------------------------------------------------------------
-- The reset of `emit`
-- ---------------------------------------------------------------------------

def invalidSignal : Signal := ⟨"InterfacesAdded", "/", [.plain .none, .plain .none]⟩

def invalidEvent : Event := .error ("invalid BlueZ signal: " ++ badVariantAccess)

/-- A snapshot has failed, and so many events wait. -/
def ready (n : Nat) : Client := { loading := false, eventQueue := List.replicate n invalidEvent }

/-- A snapshot whose reply is empty. -/
def fails : List Action := [.snapshot, .run (.ok []), .run (.ok []), .run (.ok []), .run (.ok [])]

theorem ready_reached : Reaches step {} (ready 0) := .of_exec (rfl : exec step {} fails = some (ready 0))

/-- A signal is handled until its event is to be queued. -/
theorem ready_emits (n : Nat) :
    exec step (ready n) [.signal invalidSignal, .callback, .callback] =
      some { ready n with callback := .emits (.queue invalidEvent) [] } := rfl

theorem ready_queues {n : Nat} (h : n < s_maxQueuedEvents) : Reaches step (ready n) (ready (n + 1)) := by
  refine (ReachesBy.of_exec (ready_emits n)).tail .callback trivial ?_
  have hlength : ¬s_maxQueuedEvents ≤ (ready n).eventQueue.length := by
    rw [ready, List.length_replicate]
    exact Nat.not_le.mpr h
  simp only [step, runCallback, runEmit, if_neg hlength]
  rw [ready, ← List.replicate_succ']
  rfl

theorem ready_full (n : Nat) (h : n ≤ s_maxQueuedEvents) : Reaches step {} (ready n) := by
  induction n with
  | zero => exact ready_reached
  | succ n ih => exact (ih (Nat.le_of_succ_le h)).trans (ready_queues h)

theorem step_overflows {event : Event} {events : List Event}
    (hcallback : c.callback = .emits (.queue event) events)
    (h : s_maxQueuedEvents ≤ c.eventQueue.length) :
    c.step .callback =
      some { c with eventQueue := [eventQueueOverflow], callback := .emits .reset events } := by
  simp only [step, runCallback, hcallback, runEmit, if_pos h]

/-- The queue has overflown, and a snapshot has begun. -/
def overflown : Client :=
  { ready 0 with
    loading := true, eventQueue := [eventQueueOverflow], snapshot := .loading, callback := .emits .reset [] }

theorem overflown_reached : Reaches step {} overflown := by
  have hfull := (ready_full s_maxQueuedEvents (Nat.le_refl _)).trans (.of_exec (ready_emits s_maxQueuedEvents))
  refine (hfull.tail .snapshot trivial rfl).tail .callback trivial ((step_overflows rfl ?_).trans rfl)
  exact Nat.le_of_eq List.length_replicate.symm

/-- The rest of the snapshot, and a device is added in between. -/
def loses : List Action :=
  [.callback, .callback, .run (.ok []), .run (.ok [noObjects]), .signal deviceAdded, .callback,
    .callback, .callback,
    .run (.ok []), .run (.ok []), .run (.ok [])]

/-- Where `loses` leads to: the device is in the inventory, and nothing is staged. -/
def losing : Client :=
  let added := applySignal deviceAdded ⟨{ recoveryRequested := true }, []⟩
  { inventory := added.inventory, loading := false, eventQueue := [eventQueueOverflow] ++ added.events
    snapshot := .finishes 0 0 noObjects, arrived := [deviceAdded] }

theorem snapshot_lostBehindReset :
    ¬∀ (c : Client) (droppedBefore droppedAfter : Nat) (objects : Value) (inventory : Inventory),
      Reaches step {} c →
      c.snapshot = .finishes droppedBefore droppedAfter objects →
      (c.finish droppedBefore droppedAfter objects).2 = .ok inventory →
        c.Includes objects (c.before ++ c.arrived) inventory := by
  intro h
  have hloses : exec step overflown loses = some losing := rfl
  have hreached : Reaches step {} losing := overflown_reached.trans (.of_exec hloses)
  have hdevice : ∀ inventory, losing.Includes noObjects [deviceAdded] inventory →
      (inventory.findDeviceByPath devicePath).isSome := by
    rintro _ ⟨loaded, hload, rfl⟩
    have hloaded : loaded = final (load noObjects losing.inventory.devices) losing.inventory := by
      rw [final, hload]
    subst hloaded
    decide +kernel
  cases hok : (losing.finish 0 0 noObjects).2 with
  | ok inventory =>
    have hfound := hdevice inventory (h losing 0 0 noObjects inventory hreached rfl hok)
    have hlost : ((losing.finish 0 0 noObjects).2.toOption.bind (·.findDeviceByPath devicePath)).isNone := by
      decide +kernel
    rw [hok] at hlost
    exact Option.isSome_iff_ne_none.mp hfound (Option.isNone_iff_eq_none.mp hlost)
  | error error =>
    have hsome : (losing.finish 0 0 noObjects).2.toBool = true := by decide +kernel
    rw [hok] at hsome
    cases hsome

end Client
end Dmn.Bluez
