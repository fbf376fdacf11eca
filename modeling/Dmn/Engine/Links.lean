import Dmn.Engine.Overlap

/-!
# Links

A disconnect that stops the monitor first holds the phase of its session. One
of an idle session does not: a start that is issued meanwhile runs beside it.
-/

namespace Dmn.Engine

open Dmn.Lib

/-- The disconnect of a device is under way. -/
def Worker.drops (key : Key) : Worker → Bool
  | .disconnect device _ _ => identityKey device = key
  | _ => false

namespace Impl

variable {e e' : Impl}

/-- The next thing that the control thread does neither starts a monitor beside a disconnect nor
gives up one that lives. -/
def Harmless (e : Impl) (now : Nat) : Prop :=
  match e.batch with
  | [] => ∀ command ∈ (e.monitorCommands now).2, command.action = .start →
    ∀ worker ∈ e.workers, Worker.drops (identityKey command.identity) worker = false
  | .monitorEvent device _ true :: _ =>
    (e.sessionFor device).phase = .active → ¬ e.backend.Lives (identityKey device)
  | _ => True

instance (e : Impl) (now : Nat) : Decidable (e.Harmless now) := by
  unfold Harmless
  split <;> infer_instance

/-- No start is issued beside a disconnect, and no terminal event is handled for a session whose
monitor lives. -/
def Untangled (e : Impl) (action : Action) : Prop :=
  Confines action ∧ match action with
    | .control now _ _ => e.pc = .runs → e.Harmless now
    | _ => True

instance (e : Impl) (action : Action) : Decidable (e.Untangled action) :=
  have : Decidable (match action with | .control now _ _ => e.pc = .runs → e.Harmless now | _ => True) :=
    match action with
    | .control now _ _ => (inferInstance : Decidable (e.pc = .runs → e.Harmless now))
    | .send _ | .inventoryChanged | .event _ _ | .worker _ _ => isTrue trivial
  instDecidableAnd

theorem tended_of_untangled {inventoryEnabled : Bool} (h : ReachesBy step Untangled (new inventoryEnabled) e) :
    Tended false true e ∧ e.Running ∧ e.Confined := by
  refine h.invariant (I := fun e => Tended false true e ∧ e.Running ∧ e.Confined)
    ⟨tended_new _, running_new _, confined_new _⟩ ?_
  rintro e action e' ⟨htended, hrunning, hconfined⟩ ⟨hconfines, hharmless⟩ hs
  refine ⟨htended.step hrunning hconfined nofun (fun _ now _ _ device monitor batch heq hruns hbatch => ?_)
    (fun _ now _ _ heq hruns hbatch command hcommand hstart device pc hmem => ?_) hs,
    hrunning.step (fun _ _ _ _ => hconfined.requested) hs, hconfined.step hrunning hconfines hs⟩
  · subst heq
    have hharmless := hharmless hruns
    rw [Harmless, hbatch] at hharmless
    exact hharmless
  · subst heq
    have hharmless := hharmless hruns
    rw [Harmless, hbatch] at hharmless
    exact of_decide_eq_false (hharmless command hcommand hstart _ hmem)

/-- While the backend disconnects a device, no start of it is called or about to be, and no monitor
of it lives. -/
theorem disconnects_alone {inventoryEnabled : Bool} (h : ReachesBy step Untangled (new inventoryEnabled) e)
    {device : Identity} {stopFirst : Bool} (hmem : .disconnect device stopFirst .disconnecting ∈ e.workers) :
    (∀ other direct monitor, .start other direct monitor ∈ e.workers → identityKey other ≠ identityKey device) ∧
      ∀ monitor ∈ e.backend.live, e.backend.keyOf monitor ≠ some (identityKey device) := by
  obtain ⟨htended, -, hconfined⟩ := tended_of_untangled h
  have hstarts : e.pending (Op.starts (identityKey device)) = 0 := by
    have hstarts := htended.phased.starts (identityKey device)
    rw [total_other rfl] at hstarts
    cases stopFirst with
    | false =>
      have hidle : (e.sessions (identityKey device)).phase = .idle := htended.attended.apart rfl device _ hmem
      rwa [hidle] at hstarts
    | true =>
      -- the session is being stopped
      have hle := htended.phased.pending_le (identityKey device)
      have hpos : 0 < (e.workers.map Worker.op).countP (Op.stops (identityKey device)) :=
        List.countP_pos_iff.mpr ⟨_, List.mem_map_of_mem hmem, by simp [Worker.op, Op.stops]⟩
      have hstops : 0 < e.pending (Op.stops (identityKey device)) := Nat.add_pos_left hpos _
      omega
  refine ⟨fun other direct monitor hother hkey => ?_, fun monitor hlive hkey => ?_⟩
  · obtain rfl : direct = false := hconfined.workers _ hother
    have hpos : 0 < (e.workers.map Worker.op).countP (Op.starts (identityKey device)) :=
      List.countP_pos_iff.mpr ⟨_, List.mem_map_of_mem hother, by simp [Worker.op, Op.starts, hkey]⟩
    rw [pending] at hstarts
    omega
  · have hlives : e.backend.Lives (identityKey device) := ⟨monitor, hlive, hconfined.runs hkey⟩
    cases stopFirst with
    | false => exact htended.idle (htended.attended.apart rfl device _ hmem) hlives
    | true => exact htended.attended.stopped device _ hmem (.inr rfl) hlives

/-- The backend disconnects the first device, whose monitor has been stopped for it. -/
def stoppedFirst : List Action :=
  configured [phone] ++ [.worker 0 {}, .worker 0 {}, .send (.disconnect phone), goesOn, goesOn, goesOn,
    goesOn, .worker 0 {}, .worker 0 {}, .worker 0 {}]

theorem disconnects_alone_once : ∃ e : Impl, .disconnect phone true .disconnecting ∈ e.workers ∧
    e.backend.succeeded = [0] ∧
    ∀ monitor ∈ e.backend.live, e.backend.keyOf monitor ≠ some (identityKey phone) :=
  have h : ReachesBy step Untangled (new true) _ := ReachesBy.of_isSome_by stoppedFirst (by decide +kernel)
  have hmem : Worker.disconnect phone true .disconnecting ∈ _ := by decide +kernel
  ⟨_, hmem, by decide +kernel, (disconnects_alone h hmem).2⟩

/-- The backend disconnects the first device, whose session was idle. -/
def disconnecting : List Action := configured [] ++ [.send (.disconnect phone), goesOn, goesOn, .worker 0 {}]

/-- Its monitor is asked for and called for meanwhile. -/
def tangled : List Action := disconnecting ++ [goesOn, .send (.monitor phone true), goesOn, goesOn,
    goesOn, .worker 1 {}]

theorem disconnects_beside : ¬ ∀ e : Impl, ReachesBy step (fun _ => Confines) (new true) e → ∀ device stopFirst,
    .disconnect device stopFirst .disconnecting ∈ e.workers →
    (∀ other direct monitor, .start other direct monitor ∈ e.workers → identityKey other ≠ identityKey device) ∧
      ∀ monitor ∈ e.backend.live, e.backend.keyOf monitor ≠ some (identityKey device) := by
  intro h
  have hreaches : ReachesBy step (fun _ => Confines) (new true) _ := ReachesBy.of_isSome_by tangled (by
    decide +kernel)
  exact (h _ hreaches phone false (by decide +kernel)).1 phone false (some 0) (by decide +kernel) rfl

end Impl
end Dmn.Engine
