import Dmn.Bluez.Describes
import Dmn.Bluez.Snapshot

/-!
# The inventory converges

BlueZ changes its objects and says so; the signals wait for `onSignal`, and
some are discarded. Where the client is available and nothing goes on, the
inventory describes the objects, if every discarded signal is counted and
noticed, and no snapshot begins among signals of which some were discarded.
-/

namespace Dmn.Bluez

open Dmn.Lib

/-- The signal that is to be handled. -/
def CallbackPc.pending : CallbackPc → List Signal
  | .called signal | .locks signal _ => [signal]
  | _ => []

structure System where
  client : Client := {}
  -- What BlueZ has at the moment.
  objects : Objects := {}
  sent : List Signal := []
  -- What was sent, and not handed to `onSignal` yet.
  bus : List Signal := []
  -- The reply to `GetManagedObjects`, on its way.
  reply : Option Value := none
  -- What was discarded before `onSignal` looked at the counter for the last time.
  heard : Nat := 0
  -- What was discarded before the last successful snapshot took its baseline.
  covered : Nat := 0

namespace System

inductive Action
  -- BlueZ changes its objects.
  | change (signal : Signal)
  | deliver
  -- The D-Bus client discards a signal, and counts it, or does not.
  | discard (index : Nat) (counted : Bool)
  -- BlueZ answers `GetManagedObjects`.
  | answer (entries : List (Value × Value))
  | client (action : Client.Action)

/-- A signal is handled. -/
def heardAfter (s : System) : Nat :=
  match s.client.callback with
  | .called _ => s.client.dropped
  | _ => s.heard

/-- The snapshot that ends is a successful one. -/
def coveredAfter (s : System) : Nat :=
  match s.client.snapshot with
  | .finishes droppedBefore droppedAfter objects =>
    match (s.client.finish droppedBefore droppedAfter objects).2 with
    | .ok _ => droppedBefore
    | .error _ => s.covered
  | _ => s.covered

/-- The next step of `snapshot`; the result of the call is what BlueZ has answered. -/
def runSnapshot (s : System) (result : Except Error (List Value)) : Option System :=
  match s.client.snapshot, result with
  | .loading, _ => (s.client.runSnapshot result).map fun client => { s with client, reply := none }
  | .calls _, .ok _ =>
    match s.reply with
    | some value => (s.client.runSnapshot (.ok [value])).map fun client => { s with client }
    | none => none
  | _, _ => (s.client.runSnapshot result).map fun client => { s with client, covered := s.coveredAfter }

def step (s : System) : Action → Option System
  | .change signal =>
    some { s with objects := s.objects.effect signal, sent := s.sent ++ [signal], bus := s.bus ++ [signal] }
  | .deliver =>
    match s.bus with
    | [] => none
    | signal :: bus => (s.client.step (.signal signal)).map fun client => { s with client, bus }
  | .discard index counted =>
    if index < s.bus.length then
      some { s with
        bus := s.bus.eraseIdx index
        client := if counted then { s.client with dropped := s.client.dropped + 1 } else s.client }
    else none
  | .answer entries =>
    match s.client.snapshot with
    | .calls _ => some { s with reply := some (.dictionary "o" "a{sa{sv}}" entries) }
    | _ => none
  | .client (.run result) => s.runSnapshot result
  | .client (.signal _) | .client .drop => none
  | .client .callback => s.client.runCallback.map fun client => { s with client, heard := s.heardAfter }
  | .client action => (s.client.step action).map fun client => { s with client }

/-- What was sent, and is not in the inventory yet. -/
def waiting (s : System) : List Signal := s.client.stagedSignals ++ (s.client.callback.pending ++ s.bus)

/-- BlueZ is as it is assumed to be; every signal that is discarded is counted; the event queue
does not overflow while a snapshot runs; no snapshot takes its baseline when a signal was
discarded among those that wait; and every device is stored under a key that no other one has.
-/
def Orderly (s : System) : Action → Prop
  | .change signal => WellFormed signal
  | .deliver => True
  | .discard _ counted => counted
  | .answer entries => described entries = s.objects
  | .client action => s.client.Undisturbed action ∧
    match action with
    | .run _ => match s.client.snapshot with
      | .loading => s.waiting <:+ s.sent
      | .finishes _ _ objects => reloadsFree objects s.client.stagedSignals s.client.inventory
      | _ => True
    | .callback => match s.client.callback with
      | .locks signal droppedSignals =>
        s.client.inventory.available → droppedSignals = s.client.lastDroppedSignalMessages →
          s.client.loading = false →
          announced s.client.inventory signal
      | _ => True
    | _ => True

/-- No signal is on its way and no snapshot runs, whatever else goes on. -/
structure Quiescent (s : System) : Prop where
  bus : s.bus = []
  callback : s.client.callback.pending = []
  snapshot : s.client.snapshot.running = false

/-- Every discarded signal was followed by one that was handled, or by a successful snapshot. -/
def Noticed (s : System) : Prop := s.heard = s.client.dropped ∨ s.covered = s.client.dropped

-- ---------------------------------------------------------------------------
-- Invariant
-- ---------------------------------------------------------------------------

/-- What waits makes of the reply what BlueZ has. -/
def Leads (s : System) (droppedBefore : Nat) (value : Value) : Prop :=
  ∃ entries, value = .dictionary "o" "a{sa{sv}}" entries ∧
    (s.client.dropped = droppedBefore → s.client.stageOverflow = false →
      Objects.effects s.waiting (described entries) = s.objects)

def Holds (s : System) : SnapshotPc → Prop
  | .idle | .loading | .fails _ => True
  | .calls droppedBefore =>
    droppedBefore ≤ s.client.dropped ∧
      (s.client.dropped = droppedBefore → s.client.stageOverflow = false → s.waiting <:+ s.sent) ∧
        ∀ value, s.reply = some value → s.Leads droppedBefore value
  | .drains droppedBefore result =>
    droppedBefore ≤ s.client.dropped ∧ ∀ value values, result = .ok (value :: values) →
      s.Leads droppedBefore value
  | .locks droppedBefore value | .compares droppedBefore value =>
    droppedBefore ≤ s.client.dropped ∧ s.Leads droppedBefore value
  | .finishes droppedBefore droppedAfter value =>
    droppedBefore ≤ s.client.dropped ∧ s.client.lastDroppedSignalMessages ≤ droppedAfter ∧
      s.Leads droppedBefore value

structure Inv (w : Objects) (s : System) : Prop where
  sane : s.client.inventory.Sane
  world : s.objects = Objects.effects s.sent w
  well : ∀ signal ∈ s.waiting, WellFormed signal
  running : s.client.snapshot.running → s.client.loading
  unloaded : s.client.loading = false → s.client.stagedSignals = []
  loads : s.client.inventory.available → s.client.loading → s.client.snapshot.running
  lastLe : s.client.lastDroppedSignalMessages ≤ s.client.dropped
  coveredLe : s.covered ≤ s.client.dropped
  sampled : ∀ signal droppedSignals, s.client.callback = .locks signal droppedSignals → droppedSignals ≤
    s.client.dropped
  -- A discarded signal that was noticed has made the client unavailable.
  seen : s.client.inventory.available → s.client.lastDroppedSignalMessages ≤ s.covered
  current : s.client.inventory.available → s.covered = s.client.dropped →
    Objects.effects s.waiting s.client.inventory.plain = s.objects
  holds : s.Holds s.client.snapshot

variable {w : Objects} {s s' : System}

theorem initial_inv (w : Objects) : Inv w { objects := w } where
  sane := ⟨.clear {}, nofun⟩
  world := rfl
  well := nofun
  running := nofun
  unloaded := nofun
  loads := nofun
  lastLe := Nat.le_refl _
  coveredLe := Nat.le_refl _
  sampled := nofun
  seen := nofun
  current := nofun
  holds := trivial

/-- Signals come, and are staged. -/
structure Flows (s s' : System) : Prop where
  dropped : s.client.dropped ≤ s'.client.dropped
  overflow : s'.client.dropped = s.client.dropped → s'.client.stageOverflow = false →
    s.client.stageOverflow = false
  effects : s'.client.dropped = s.client.dropped → s'.client.stageOverflow = false → ∀ v : Objects,
    Objects.effects s.waiting v = s.objects → Objects.effects s'.waiting v = s'.objects
  suffix : s'.client.dropped = s.client.dropped → s'.client.stageOverflow = false → s.waiting <:+ s.sent →
    s'.waiting <:+ s'.sent
  reply : s'.reply = s.reply

theorem Leads.flows {droppedBefore : Nat} {value : Value} (h : s.Leads droppedBefore value)
    (hflows : Flows s s')
    (hle : droppedBefore ≤ s.client.dropped) : s'.Leads droppedBefore value := by
  obtain ⟨entries, hvalue, heffects⟩ := h
  refine ⟨entries, hvalue, fun hdropped hoverflow => ?_⟩
  have hsame : s'.client.dropped = s.client.dropped := by
    have hmono := hflows.dropped
    omega
  exact hflows.effects hsame hoverflow _ (heffects (hsame ▸ hdropped) (hflows.overflow hsame hoverflow))

theorem Holds.flows {pc : SnapshotPc} (h : s.Holds pc) (hflows : Flows s s')
    (hlast : pc.ordering → s'.client.lastDroppedSignalMessages = s.client.lastDroppedSignalMessages) :
    s'.Holds pc := by
  have hmono := hflows.dropped
  cases pc with
  | idle | loading | fails => trivial
  | calls droppedBefore =>
    obtain ⟨hle, hsuffix, hreply⟩ := h
    refine ⟨Nat.le_trans hle hmono, fun hdropped hoverflow => ?_,
      fun value hvalue => (hreply value (hflows.reply ▸ hvalue)).flows hflows hle⟩
    have hsame : s'.client.dropped = s.client.dropped := by omega
    exact hflows.suffix hsame hoverflow (hsuffix (hsame ▸ hdropped) (hflows.overflow hsame hoverflow))
  | drains droppedBefore result =>
    exact ⟨Nat.le_trans h.1 hmono, fun value values hresult => (h.2 value values hresult).flows hflows h.1⟩
  | locks droppedBefore value | compares droppedBefore value =>
    exact ⟨Nat.le_trans h.1 hmono, h.2.flows hflows h.1⟩
  | finishes droppedBefore droppedAfter value =>
    exact ⟨Nat.le_trans h.1 hmono, by rw [hlast rfl]; exact h.2.1, h.2.2.flows hflows h.1⟩

-- ---------------------------------------------------------------------------
-- What the client does
-- ---------------------------------------------------------------------------

/-- The client goes on, and the inventory, the signals that wait and the snapshot stay. -/
theorem Inv.moves (h : s.Inv w) {c : Client} (hsane : c.inventory.Sane)
    (hplain : c.inventory.plain = s.client.inventory.plain)
    (havailable : c.inventory.available = s.client.inventory.available)
    (hwaiting : System.waiting { s with client := c } = s.waiting) (hunloaded : c.loading = false →
    c.stagedSignals = [])
    (hloading : c.loading = s.client.loading) (hoverflow : c.stageOverflow = s.client.stageOverflow)
    (hlast : c.lastDroppedSignalMessages = s.client.lastDroppedSignalMessages)
    (hdropped : c.dropped = s.client.dropped)
    (hsnapshot : c.snapshot = s.client.snapshot)
    (hsampled : ∀ signal droppedSignals, c.callback = .locks signal droppedSignals → droppedSignals ≤
    s.client.dropped) :
    Inv w { s with client := c } where
  sane := hsane
  world := h.world
  well := by rw [hwaiting]; exact h.well
  running := by
    show c.snapshot.running → c.loading
    rw [hsnapshot, hloading]
    exact h.running
  unloaded := hunloaded
  loads := by
    show c.inventory.available → c.loading → c.snapshot.running
    rw [hsnapshot, hloading, havailable]
    exact h.loads
  lastLe := by
    show c.lastDroppedSignalMessages ≤ c.dropped
    rw [hlast, hdropped]
    exact h.lastLe
  coveredLe := by
    show s.covered ≤ c.dropped
    rw [hdropped]
    exact h.coveredLe
  sampled := fun signal droppedSignals hcallback => by
    show droppedSignals ≤ c.dropped
    rw [hdropped]
    exact hsampled signal droppedSignals hcallback
  seen := by
    show c.inventory.available → c.lastDroppedSignalMessages ≤ s.covered
    rw [havailable, hlast]
    exact h.seen
  current := by
    show c.inventory.available → s.covered = c.dropped → Objects.effects _ c.inventory.plain = s.objects
    rw [havailable, hdropped, hplain, hwaiting]
    exact h.current
  holds := by
    show Holds _ c.snapshot
    rw [hsnapshot]
    refine h.holds.flows ⟨?_, ?_, ?_, ?_, rfl⟩ fun _ => hlast
    · exact Nat.le_of_eq hdropped.symm
    · exact fun _ hnot => hoverflow ▸ hnot
    · rw [hwaiting]
      exact fun _ _ _ heffects => heffects
    · rw [hwaiting]
      exact fun _ _ hsuffix => hsuffix

/-- A step that none of this is about. -/
theorem Inv.frame (h : s.Inv w) {c : Client} (hsane : c.inventory.Sane)
    (hplain : c.inventory.plain = s.client.inventory.plain)
    (havailable : c.inventory.available = s.client.inventory.available)
    (hstaged : c.stagedSignals = s.client.stagedSignals) (hloading : c.loading = s.client.loading)
    (hoverflow : c.stageOverflow = s.client.stageOverflow)
    (hlast : c.lastDroppedSignalMessages = s.client.lastDroppedSignalMessages)
    (hdropped : c.dropped = s.client.dropped)
    (hsnapshot : c.snapshot = s.client.snapshot) (hpending : c.callback.pending = s.client.callback.pending)
    (hsampled : ∀ signal droppedSignals, c.callback = .locks signal droppedSignals → droppedSignals ≤
    s.client.dropped) :
    Inv w { s with client := c } := by
  refine h.moves hsane hplain havailable ?_ ?_ hloading hoverflow hlast hdropped hsnapshot hsampled
  · show c.stagedSignals ++ (c.callback.pending ++ s.bus) = _
    rw [hstaged, hpending]
    rfl
  · rw [hloading, hstaged]
    exact h.unloaded

/-- The client is made unavailable, and no snapshot goes on. -/
theorem Inv.clears (h : s.Inv w) {c : Client} (hsane : c.inventory.Sane)
    (havailable : c.inventory.available = false)
    (hstaged : c.stagedSignals = []) (hlast : c.lastDroppedSignalMessages ≤ s.client.dropped)
    (hdropped : c.dropped = s.client.dropped) (hrunning : c.snapshot.running = false)
    (hpending : c.callback.pending = [] ∨ c.callback = s.client.callback) : Inv w { s with client := c } where
  sane := hsane
  world := h.world
  well signal hmem := by
    change signal ∈ c.stagedSignals ++ (c.callback.pending ++ s.bus) at hmem
    rw [hstaged, List.nil_append] at hmem
    refine h.well signal (List.mem_append_right _ ?_)
    obtain hnone | hsame := hpending
    · rw [hnone, List.nil_append] at hmem
      exact List.mem_append_right _ hmem
    · rw [hsame] at hmem
      exact hmem
  running hrun := by
    rw [hrunning] at hrun
    cases hrun
  unloaded _ := hstaged
  loads htrue := by
    rw [havailable] at htrue
    cases htrue
  lastLe := by
    show _ ≤ c.dropped
    rw [hdropped]
    exact hlast
  coveredLe := by
    show _ ≤ c.dropped
    rw [hdropped]
    exact h.coveredLe
  sampled signal droppedSignals hcallback := by
    show _ ≤ c.dropped
    rw [hdropped]
    obtain hnone | hsame := hpending
    · rw [hcallback] at hnone
      cases hnone
    · exact h.sampled signal droppedSignals (hsame ▸ hcallback)
  seen htrue := by
    rw [havailable] at htrue
    cases htrue
  current htrue := by
    rw [havailable] at htrue
    cases htrue
  holds := by
    show Holds _ c.snapshot
    cases hsnapshot : c.snapshot <;> first | trivial | (rw [hsnapshot] at hrunning; cases hrunning)

/-- What was staged is lost while a snapshot may run, and the client is unavailable. -/
theorem Inv.overflows (h : s.Inv w) {c : Client} (hsane : c.inventory.Sane)
    (havailable : c.inventory.available = false)
    (hstaged : c.stagedSignals = []) (hoverflow : c.stageOverflow = true)
    (hloading : c.loading = s.client.loading)
    (hlast : c.lastDroppedSignalMessages ≤ s.client.dropped) (hdropped : c.dropped = s.client.dropped)
    (hsnapshot : c.snapshot = s.client.snapshot) (hordering : s.client.snapshot.ordering = false)
    (hpending : c.callback.pending = []) : Inv w { s with client := c } where
  sane := hsane
  world := h.world
  well signal hmem := by
    change signal ∈ c.stagedSignals ++ (c.callback.pending ++ s.bus) at hmem
    rw [hstaged, hpending] at hmem
    exact h.well signal (List.mem_append_right _ (List.mem_append_right _ hmem))
  running := by
    show c.snapshot.running → c.loading
    rw [hsnapshot, hloading]
    exact h.running
  unloaded _ := hstaged
  loads htrue := by
    rw [havailable] at htrue
    cases htrue
  lastLe := by
    show _ ≤ c.dropped
    rw [hdropped]
    exact hlast
  coveredLe := by
    show _ ≤ c.dropped
    rw [hdropped]
    exact h.coveredLe
  sampled signal droppedSignals hcallback := by
    rw [hcallback] at hpending
    cases hpending
  seen htrue := by
    rw [havailable] at htrue
    cases htrue
  current htrue := by
    rw [havailable] at htrue
    cases htrue
  holds := by
    have hnever {P : Prop} (hnot : c.stageOverflow = false) : P := by
      rw [hoverflow] at hnot
      cases hnot
    show Holds _ c.snapshot
    rw [hsnapshot]
    refine h.holds.flows ⟨Nat.le_of_eq hdropped.symm, fun _ => hnever, fun _ => hnever, fun _ => hnever,
      rfl⟩ fun htrue => ?_
    rw [hordering] at htrue
    cases htrue

theorem sane_clear (i : Inventory) : i.clear.Sane := ⟨.clear i, nofun⟩

theorem sane_congr {i j : Inventory} (h : i.Sane) (hadapters : j.adapters = i.adapters)
    (hdevices : j.devices = i.devices)
    (hpaths : j.devicePaths = i.devicePaths) : j.Sane := ⟨h.1.congr hdevices hpaths, h.2.congr hadapters⟩

theorem unsee_sane {i : Inventory} (h : i.Sane) (adapterPath : String) : (i.unsee adapterPath).Sane :=
  ⟨Client.unsee_inverse h.1 adapterPath, h.2.congr rfl⟩

theorem unsee_plain (i : Inventory) (adapterPath : String) : (i.unsee adapterPath).plain = i.plain := by
  have hdevices : (i.unsee adapterPath).plain.devices = i.plain.devices := funext fun path => by
    show Option.map Device.unseen ((i.devicePaths path).bind (i.unsee adapterPath).devices) =
      Option.map Device.unseen ((i.devicePaths path).bind i.devices)
    cases i.devicePaths path with
    | none => rfl
    | some identity =>
      show Option.map Device.unseen (Option.map _ (i.devices identity)) = Option.map Device.unseen
        (i.devices identity)
      cases i.devices identity with
      | none => rfl
      | some device =>
        show some (Device.unseen (if device.adapterPath = adapterPath then _ else device)) = some device.unseen
        split <;> rfl
  exact congrArg (Consumer.mk i.adapters) hdevices

theorem runEmit_fields (c : Client) (pc : EmitPc) :
    (c.runEmit pc).1.callback = c.callback ∧ (c.runEmit pc).1.lastDroppedSignalMessages =
    c.lastDroppedSignalMessages := by
  cases pc with
  | queue event =>
    simp only [Client.runEmit]
    split <;> exact ⟨rfl, rfl⟩
  | reset | request => exact ⟨rfl, rfl⟩

/-- A step of `emit`; its reset does not meet a snapshot. -/
theorem Inv.emits (h : s.Inv w) (pc : EmitPc) (callback : CallbackPc) (recovery : RecoveryPc)
    (hcallback : callback.pending = [] ∧ s.client.callback.pending = [] ∨ callback = s.client.callback)
    (hreset : pc = .reset → s.client.snapshot.running = false) :
    Inv w { s with client := { (s.client.runEmit pc).1 with callback, recovery } } := by
  have hpending : callback.pending = s.client.callback.pending := by
    obtain ⟨hnone, hnone'⟩ | hsame := hcallback
    · rw [hnone, hnone']
    · rw [hsame]
  have hsampled : ∀ signal droppedSignals, callback = .locks signal droppedSignals → droppedSignals ≤
    s.client.dropped := by
    intro signal droppedSignals hlocks
    obtain ⟨hnone, -⟩ | hsame := hcallback
    · rw [hlocks] at hnone
      cases hnone
    · exact h.sampled signal droppedSignals (hsame ▸ hlocks)
  cases pc with
  | queue event =>
    simp only [Client.runEmit]
    split
    · exact h.frame h.sane rfl rfl rfl rfl rfl rfl rfl rfl hpending hsampled
    · exact h.frame h.sane rfl rfl rfl rfl rfl rfl rfl rfl hpending hsampled
  | reset =>
    exact h.clears (sane_clear _) rfl rfl h.lastLe rfl (hreset rfl) (hcallback.imp And.left id)
  | request => exact h.frame (sane_congr h.sane rfl rfl rfl) rfl rfl rfl rfl rfl rfl rfl rfl hpending hsampled

theorem unavailable_stable : Stable fun i => i.available = false where
  disowns _ _ := rfl
  requests _ h := h
  adds _ _ h := h
  changes _ _ _ _ h _ _ := h
  removes _ _ h := h
  stores i device h := (Inventory.storeDevice_available i device).trans h
  setsDevice _ _ _ h := h
  setsPath _ _ _ h := h

theorem emitNext_pending (events : List Event) : (Client.emitNext events).pending = [] := by
  cases events <;> rfl

theorem emitNext_sampled {events : List Event} {signal : Signal} {droppedSignals n : Nat}
    (h : Client.emitNext events = .locks signal droppedSignals) : droppedSignals ≤ n := by
  cases events <;> cases h

/-- A signal is applied where no snapshot runs. -/
theorem Inv.applies (h : s.Inv w) {signal : Signal} {bus : List Signal} {c : Client}
    (hwaiting : s.waiting = signal :: bus) (hrest : System.waiting { s with client := c } = bus)
    (hloading : s.client.loading = false) (hloading' : c.loading = false) (hstaged : c.stagedSignals = [])
    (hinventory : c.inventory = (applySignal signal ⟨s.client.inventory, []⟩).inventory)
    (hlast : c.lastDroppedSignalMessages = s.client.lastDroppedSignalMessages)
    (hdropped : c.dropped = s.client.dropped)
    (hsnapshot : c.snapshot = s.client.snapshot) (hsampled : c.callback.pending = [])
    (hannounced : s.client.inventory.available → announced s.client.inventory signal) :
    Inv w { s with client := c } := by
  have hrunning : s.client.snapshot.running = false := eq_false_of_ne_true fun htrue => by
    rw [h.running htrue] at hloading
    cases hloading
  have havailable (htrue : c.inventory.available) : s.client.inventory.available := by
    refine eq_true_of_ne_false fun hfalse => ?_
    have hkept : (applySignal signal ⟨s.client.inventory, []⟩).inventory.available = false :=
      unavailable_stable.applySignal hfalse signal
    rw [hinventory, hkept] at htrue
    cases htrue
  have hsignal : WellFormed signal := h.well signal (hwaiting ▸ List.mem_cons_self)
  exact {
    sane := by
      show c.inventory.Sane
      rw [hinventory]
      exact ⟨h.sane.1.applySignal signal, h.sane.2.applySignal signal⟩
    world := h.world
    well := by
      rw [hrest]
      exact fun other hother => h.well other (hwaiting ▸ List.mem_cons_of_mem _ hother)
    running := fun htrue => by
      change c.snapshot.running = true at htrue
      rw [hsnapshot, hrunning] at htrue
      cases htrue
    unloaded := fun _ => hstaged
    loads := fun _ htrue => by
      change c.loading = true at htrue
      rw [hloading'] at htrue
      cases htrue
    lastLe := by
      show c.lastDroppedSignalMessages ≤ c.dropped
      rw [hlast, hdropped]
      exact h.lastLe
    coveredLe := by
      show s.covered ≤ c.dropped
      rw [hdropped]
      exact h.coveredLe
    sampled := fun other droppedSignals hcallback => by
      change c.callback = _ at hcallback
      rw [hcallback] at hsampled
      cases hsampled
    seen := fun htrue => by
      show c.lastDroppedSignalMessages ≤ s.covered
      rw [hlast]
      exact h.seen (havailable htrue)
    current := fun htrue hcovered => by
      have htrue' := havailable htrue
      have hcurrent := h.current htrue' (hcovered.trans hdropped)
      rw [hrest]
      show Objects.effects bus c.inventory.plain = s.objects
      rw [hinventory, applySignal_plain hsignal h.sane (hannounced htrue'), ← hcurrent, hwaiting]
      rfl
    holds := by
      show Holds _ c.snapshot
      rw [hsnapshot]
      cases hpc : s.client.snapshot <;> first | trivial | (rw [hpc] at hrunning; cases hrunning) }

/-- A snapshot begins. -/
theorem Inv.begins (h : s.Inv w) (caller : Caller) (recovery : RecoveryPc) :
    Inv w { s with client := { s.client.begin caller with recovery } } where
  sane := h.sane
  world := h.world
  well := h.well
  running _ := rfl
  unloaded := nofun
  loads _ _ := rfl
  lastLe := h.lastLe
  coveredLe := h.coveredLe
  sampled := h.sampled
  seen := h.seen
  current := h.current
  holds := trivial

theorem Inv.callback (h : s.Inv w) {c : Client} (hok : s.Orderly (.client .callback))
    (hs : s.client.runCallback = some c) :
    Inv w { s with client := c } := by
  obtain ⟨hundisturbed, hannounced⟩ := hok
  unfold Client.runCallback at hs
  split at hs <;> rename_i hcallback
  · cases hs
  · rename_i signal
    obtain rfl := Option.some.inj hs
    refine h.frame h.sane rfl rfl rfl rfl rfl rfl rfl rfl ?_ fun other droppedSignals heq => ?_
    · rw [hcallback]
      rfl
    · cases heq
      exact Nat.le_refl _
  · rename_i signal droppedSignals
    have hsampled := h.sampled signal droppedSignals hcallback
    have hwaits : s.waiting = s.client.stagedSignals ++ signal :: s.bus := by
      rw [waiting, hcallback]
      rfl
    simp only [hcallback] at hannounced
    split at hs
    · cases hs
    · rename_i hordering
      have hnotOrdering : s.client.snapshot.ordering = false := eq_false_of_ne_true hordering
      unfold Client.process at hs
      by_cases hdropped : droppedSignals = s.client.lastDroppedSignalMessages
      · simp only [if_neg (not_not.mpr hdropped)] at hs
        by_cases hloading : s.client.loading = true
        · simp only [if_pos hloading] at hs
          by_cases hfull : s_maxStagedSignals ≤ s.client.stagedSignals.length
          · simp only [if_pos hfull] at hs
            obtain rfl := Option.some.inj hs
            exact h.overflows (sane_clear _) rfl rfl rfl rfl h.lastLe rfl rfl hnotOrdering rfl
          · simp only [if_neg hfull] at hs
            obtain rfl := Option.some.inj hs
            refine h.moves h.sane rfl rfl ?_ (fun hfalse => ?_) rfl rfl rfl rfl rfl nofun
            · rw [hwaits]
              show (s.client.stagedSignals ++ [signal]) ++ ([] ++ s.bus) = _
              rw [List.nil_append, List.append_assoc]
              rfl
            · change s.client.loading = false at hfalse
              rw [hloading] at hfalse
              cases hfalse
        · have hunloaded : s.client.loading = false := eq_false_of_ne_true hloading
          have hstaged := h.unloaded hunloaded
          simp only [hunloaded, Bool.false_eq_true, if_false] at hs
          obtain rfl := Option.some.inj hs
          rw [hstaged, List.nil_append] at hwaits
          refine h.applies hwaits ?_ hunloaded rfl hstaged rfl rfl rfl rfl (emitNext_pending _)
            fun htrue => hannounced htrue hdropped hunloaded
          show s.client.stagedSignals ++ ((Client.emitNext _).pending ++ s.bus) = s.bus
          rw [hstaged, emitNext_pending]
          rfl
      · simp only [if_pos hdropped] at hs
        by_cases hloading : s.client.loading = true
        · have hloading' : (Client.clear s.client).loading = true := hloading
          simp only [hloading', if_true] at hs
          obtain rfl := Option.some.inj hs
          exact h.overflows (sane_clear _) rfl rfl rfl hloading.symm hsampled rfl rfl hnotOrdering rfl
        · have hunloaded : (Client.clear s.client).loading = false := eq_false_of_ne_true hloading
          simp only [hunloaded, Bool.false_eq_true, if_false] at hs
          obtain rfl := Option.some.inj hs
          refine h.clears (sane_clear _) rfl (h.unloaded hunloaded) hsampled rfl ?_ (.inl rfl)
          refine eq_false_of_ne_true fun htrue => hloading (h.running htrue)
  · obtain rfl := Option.some.inj hs
    refine h.frame (sane_congr h.sane rfl rfl rfl) rfl rfl rfl rfl rfl rfl rfl rfl ?_ fun _ _ =>
      emitNext_sampled
    rw [hcallback]
    exact emitNext_pending _
  · rename_i pc events
    obtain rfl := Option.some.inj hs
    have hpending : s.client.callback.pending = [] := by rw [hcallback]; rfl
    refine h.emits pc _ (s.client.runEmit pc).1.recovery (.inl ⟨?_, hpending⟩) fun hreset => ?_
    · split
      · rfl
      · exact emitNext_pending _
    · subst hreset
      refine eq_false_of_ne_true fun htrue => ?_
      have hnot := hundisturbed htrue
      simp only [Client.resets, hcallback] at hnot
      cases hnot

theorem Inv.recovery (h : s.Inv w) {c : Client} (hok : s.Orderly (.client .recovery))
    (hs : s.client.runRecovery = some c) :
    Inv w { s with client := c } := by
  have hundisturbed := hok.1
  unfold Client.runRecovery at hs
  split at hs <;> rename_i hrecovery
  · split at hs
    · obtain rfl := Option.some.inj hs
      exact h.frame (sane_congr h.sane rfl rfl rfl) rfl rfl rfl rfl rfl rfl rfl rfl rfl h.sampled
    · cases hs
  · split at hs
    · obtain rfl := Option.some.inj hs
      exact h.begins .recovery .snapshots
    · cases hs
  · cases hs
  · rename_i pc
    obtain rfl := Option.some.inj hs
    refine h.emits pc (s.client.runEmit pc).1.callback _ (.inr (runEmit_fields _ _).1) fun hreset => ?_
    subst hreset
    refine eq_false_of_ne_true fun htrue => ?_
    have hnot := hundisturbed htrue
    simp only [Client.resets, hrecovery] at hnot
    cases hnot

-- ---------------------------------------------------------------------------
-- What BlueZ does, and the snapshot
-- ---------------------------------------------------------------------------

theorem Inv.change (h : s.Inv w) {signal : Signal} (hsignal : WellFormed signal) :
    Inv w { s with
      objects := s.objects.effect signal, sent := s.sent ++ [signal], bus := s.bus ++ [signal] } := by
  have hwaiting : System.waiting
      { s with objects := s.objects.effect signal, sent := s.sent ++ [signal], bus := s.bus ++ [signal] } =
        s.waiting ++ [signal] := by
    simp only [waiting, List.append_assoc]
  have heffects (v : Objects) (hv : Objects.effects s.waiting v = s.objects) :
      Objects.effects (s.waiting ++ [signal]) v = s.objects.effect signal := by
    rw [Objects.effects_append, hv]
    rfl
  exact {
    sane := h.sane
    world := by
      show s.objects.effect signal = Objects.effects (s.sent ++ [signal]) w
      rw [Objects.effects_append, ← h.world]
      rfl
    well := by
      rw [hwaiting]
      intro other hother
      obtain hold | hnew := List.mem_append.mp hother
      · exact h.well other hold
      · rw [List.mem_singleton.mp hnew]
        exact hsignal
    running := h.running
    unloaded := h.unloaded
    loads := h.loads
    lastLe := h.lastLe
    coveredLe := h.coveredLe
    sampled := h.sampled
    seen := h.seen
    current := fun havailable hcovered => by
      rw [hwaiting]
      exact heffects _ (h.current havailable hcovered)
    holds := by
      refine h.holds.flows ⟨Nat.le_refl _, fun _ => id, fun _ _ v hv => ?_, fun _ _ hsuffix => ?_,
        rfl⟩ fun _ => rfl
      · rw [hwaiting]
        exact heffects v hv
      · rw [hwaiting]
        obtain ⟨before_, hbefore⟩ := hsuffix
        exact ⟨before_, by rw [← List.append_assoc, hbefore]⟩ }

theorem Inv.deliver (h : s.Inv w) {signal : Signal} {bus : List Signal} {c : Client}
    (hbus : s.bus = signal :: bus)
    (hs : s.client.step (.signal signal) = some c) : Inv w { s with client := c, bus } := by
  simp only [Client.step] at hs
  split at hs <;> rename_i hcallback
  · obtain rfl := Option.some.inj hs
    have hwaiting : System.waiting { s with client := { s.client with callback := .called signal }, bus } =
      s.waiting := by
      simp only [waiting, hcallback, hbus]
      rfl
    exact {
      sane := h.sane
      world := h.world
      well := by rw [hwaiting]; exact h.well
      running := h.running
      unloaded := h.unloaded
      loads := h.loads
      lastLe := h.lastLe
      coveredLe := h.coveredLe
      sampled := by rintro _ _ ⟨⟩
      seen := h.seen
      current := by rw [hwaiting]; exact h.current
      holds := by
        refine h.holds.flows ⟨Nat.le_refl _, fun _ => id, ?_, ?_, rfl⟩ fun _ => rfl
        · rw [hwaiting]
          exact fun _ _ _ => id
        · rw [hwaiting]
          exact fun _ _ => id }
  · cases hs

theorem Inv.discard (h : s.Inv w) (index : Nat) :
    Inv w { s with bus := s.bus.eraseIdx index, client := { s.client with dropped := s.client.dropped + 1 } }
      where
  sane := h.sane
  world := h.world
  well signal hmem := by
    refine h.well signal ?_
    obtain hstaged | hrest := List.mem_append.mp hmem
    · exact List.mem_append_left _ hstaged
    · refine List.mem_append_right _ ?_
      obtain hpending | hbus := List.mem_append.mp hrest
      · exact List.mem_append_left _ hpending
      · exact List.mem_append_right _ (List.mem_of_mem_eraseIdx hbus)
  running := h.running
  unloaded := h.unloaded
  loads := h.loads
  lastLe := Nat.le_succ_of_le h.lastLe
  coveredLe := Nat.le_succ_of_le h.coveredLe
  sampled signal droppedSignals hcallback := Nat.le_succ_of_le (h.sampled signal droppedSignals hcallback)
  seen := h.seen
  current _ hcovered := by
    have hle := h.coveredLe
    change s.covered = s.client.dropped + 1 at hcovered
    omega
  holds := by
    have hnever {P : Prop} (hsame : s.client.dropped + 1 = s.client.dropped) : P :=
      absurd hsame (Nat.succ_ne_self _)
    exact h.holds.flows ⟨Nat.le_succ _, fun hsame => hnever hsame, fun hsame => hnever hsame,
      fun hsame => hnever hsame, rfl⟩
      fun _ => rfl

/-- The reply says what BlueZ has, and the signals that wait have led there already. -/
theorem Inv.answer (h : s.Inv w) {droppedBefore : Nat} {entries : List (Value × Value)}
    (hsnapshot : s.client.snapshot = .calls droppedBefore) (hentries : described entries = s.objects) :
    Inv w { s with reply := some (.dictionary "o" "a{sa{sv}}" entries) } where
  sane := h.sane
  world := h.world
  well := h.well
  running := h.running
  unloaded := h.unloaded
  loads := h.loads
  lastLe := h.lastLe
  coveredLe := h.coveredLe
  sampled := h.sampled
  seen := h.seen
  current := h.current
  holds := by
    have hholds := h.holds
    show Holds _ s.client.snapshot
    rw [hsnapshot] at hholds ⊢
    obtain ⟨hle, hsuffix, -⟩ := hholds
    refine ⟨hle, hsuffix, fun value hvalue => ?_⟩
    obtain rfl := Option.some.inj hvalue
    refine ⟨entries, rfl, fun hdropped hoverflow => ?_⟩
    obtain ⟨earlier, hsent⟩ := hsuffix hdropped hoverflow
    have hworld := h.world
    rw [← hsent, Objects.effects_append] at hworld
    show Objects.effects s.waiting (described entries) = s.objects
    rw [hentries, hworld]
    exact Objects.effects_twice h.well _

/-- A snapshot ends without success. -/
theorem Inv.fails (h : s.Inv w) {c : Client} (hclear : c.inventory.Sane)
    (havailable : c.inventory.available = false)
    (hstaged : c.stagedSignals = []) (hlast : c.lastDroppedSignalMessages = s.client.lastDroppedSignalMessages)
    (hdropped : c.dropped = s.client.dropped) (hsnapshot : c.snapshot = .idle)
    (hcallback : c.callback = s.client.callback) :
    Inv w { s with client := c } :=
  h.clears hclear havailable hstaged (hlast ▸ h.lastLe) hdropped (by rw [hsnapshot]; rfl) (.inr hcallback)

/-- The snapshot goes on. -/
theorem Inv.snapshots (h : s.Inv w) {pc : SnapshotPc} (hrunning : s.client.snapshot.running)
    (hpc : pc.running) (hholds : s.Holds pc) :
    Inv w { s with client := { s.client with snapshot := pc } } where
  sane := h.sane
  world := h.world
  well := h.well
  running _ := h.running hrunning
  unloaded := h.unloaded
  loads _ _ := hpc
  lastLe := h.lastLe
  coveredLe := h.coveredLe
  sampled := h.sampled
  seen := h.seen
  current := h.current
  holds := by cases pc <;> exact hholds

theorem finish_fields (c : Client) (droppedBefore droppedAfter : Nat) (objects : Value) :
    (c.finish droppedBefore droppedAfter objects).1.stagedSignals = [] ∧
      (c.finish droppedBefore droppedAfter objects).1.loading = false ∧
      (c.finish droppedBefore droppedAfter objects).1.lastDroppedSignalMessages = c.lastDroppedSignalMessages ∧
      (c.finish droppedBefore droppedAfter objects).1.dropped = c.dropped ∧
      (c.finish droppedBefore droppedAfter objects).1.callback = c.callback := by
  unfold Client.finish
  split
  · exact ⟨rfl, rfl, rfl, rfl, rfl⟩
  · split
    · exact ⟨rfl, rfl, rfl, rfl, rfl⟩
    · split
      · exact ⟨rfl, rfl, rfl, rfl, rfl⟩
      · split <;> exact ⟨rfl, rfl, rfl, rfl, rfl⟩

/-- A snapshot that fails leaves the client unavailable, with empty maps. -/
theorem finish_error {c : Client} {droppedBefore droppedAfter : Nat} {objects : Value} {error : Error}
    (h : (c.finish droppedBefore droppedAfter objects).2 = .error error) :
    (c.finish droppedBefore droppedAfter objects).1.inventory.Sane ∧
      (c.finish droppedBefore droppedAfter objects).1.inventory.available = false := by
  unfold Client.finish at h ⊢
  split
  · exact ⟨sane_clear _, rfl⟩
  · split
    · exact ⟨sane_clear _, rfl⟩
    · rename_i hdropped hoverflow
      rw [if_neg hdropped, if_neg hoverflow] at h
      split
      · exact ⟨sane_clear _, rfl⟩
      · rename_i hreload
        rw [hreload] at h
        split
        · exact ⟨sane_clear _, rfl⟩
        · rename_i hlost
          dsimp only at h
          rw [if_neg hlost] at h
          cases h

/-- A snapshot that succeeds makes the client available, with what the reply and the staged signals say. -/
theorem finish_ok {c : Client} {droppedBefore droppedAfter : Nat} {entries : List (Value × Value)}
    {inventory : Inventory}
    (hstaged : ∀ signal ∈ c.stagedSignals, WellFormed signal)
    (hfree : reloadsFree (.dictionary "o" "a{sa{sv}}" entries) c.stagedSignals c.inventory)
    (h : (c.finish droppedBefore droppedAfter (.dictionary "o" "a{sa{sv}}" entries)).2 = .ok inventory) :
    droppedAfter ≤ droppedBefore ∧ c.stageOverflow = false ∧
      (c.finish droppedBefore droppedAfter (.dictionary "o" "a{sa{sv}}" entries)).1.inventory = inventory ∧
      inventory.plain = Objects.effects c.stagedSignals (described entries) := by
  have hincludes := Client.finish_includes h
  refine ⟨?_, hincludes.1, hincludes.2.2, ?_⟩
  all_goals
    unfold Client.finish at h
    split at h
    · cases h
    · rename_i hdropped
      split at h
      · cases h
      · split at h
        · cases h
        · rename_i hreload
          split at h
          · cases h
          · obtain rfl := Except.ok.inj h
            first | omega | exact (reload_plain hstaged hfree hreload :)

theorem Inv.finish (h : s.Inv w) {droppedBefore droppedAfter : Nat} {objects : Value} {c : Client}
    (hsnapshot : s.client.snapshot = .finishes droppedBefore droppedAfter objects)
    (hfree : reloadsFree objects s.client.stagedSignals s.client.inventory)
    (hc : c = (s.client.finish droppedBefore droppedAfter objects).1.returns
    (s.client.finish droppedBefore droppedAfter objects).2) :
    Inv w { s with client := c, covered := s.coveredAfter } := by
  have hholds := h.holds
  rw [hsnapshot] at hholds
  obtain ⟨hle, hlast, entries, rfl, hleads⟩ := hholds
  obtain ⟨hstaged, hloading, hlastEq, hdropped, hcallback⟩ :=
    finish_fields s.client droppedBefore droppedAfter (.dictionary "o" "a{sa{sv}}" entries)
  have hwellStaged : ∀ signal ∈ s.client.stagedSignals, WellFormed signal := fun signal hmem =>
    h.well signal (List.mem_append_left _ hmem)
  have hcovered : s.coveredAfter =
      match (s.client.finish droppedBefore droppedAfter (.dictionary "o" "a{sa{sv}}" entries)).2 with
      | .ok _ => droppedBefore
      | .error _ => s.covered := by
    unfold coveredAfter
    rw [hsnapshot]
  subst hc
  cases hresult : (s.client.finish droppedBefore droppedAfter (.dictionary "o" "a{sa{sv}}" entries)).2 with
  | error error =>
    rw [hresult] at hcovered
    rw [hcovered]
    obtain ⟨hsane, havailable⟩ := finish_error hresult
    exact h.fails hsane havailable hstaged hlastEq hdropped rfl hcallback
  | ok inventory =>
    rw [hresult] at hcovered
    rw [hcovered]
    obtain ⟨hafter, hoverflow, hinventory, hplain⟩ := finish_ok hwellStaged hfree hresult
    have hwaiting : System.waiting { s with
        client := (s.client.finish droppedBefore droppedAfter (.dictionary "o" "a{sa{sv}}" entries)).1.returns
          (.ok inventory),
        covered := droppedBefore } = s.client.callback.pending ++ s.bus := by
      show (s.client.finish droppedBefore droppedAfter _).1.stagedSignals ++
        ((s.client.finish droppedBefore droppedAfter _).1.callback.pending ++ s.bus) = _
      rw [hstaged, hcallback]
      rfl
    exact {
      sane := by
        show (s.client.finish droppedBefore droppedAfter _).1.inventory.Sane
        rw [hinventory]
        exact Client.finish_sane hresult
      world := h.world
      well := by
        rw [hwaiting]
        exact fun signal hmem => h.well signal (List.mem_append_right _ hmem)
      running := nofun
      unloaded := fun _ => hstaged
      loads := fun _ htrue => by
        change (s.client.finish droppedBefore droppedAfter _).1.loading = true at htrue
        rw [hloading] at htrue
        cases htrue
      lastLe := by
        show (s.client.finish droppedBefore droppedAfter _).1.lastDroppedSignalMessages ≤
          (s.client.finish droppedBefore droppedAfter _).1.dropped
        rw [hlastEq, hdropped]
        exact h.lastLe
      coveredLe := by
        show droppedBefore ≤ (s.client.finish droppedBefore droppedAfter _).1.dropped
        rw [hdropped]
        exact hle
      sampled := fun signal droppedSignals heq => by
        change (s.client.finish droppedBefore droppedAfter _).1.callback = _ at heq
        show droppedSignals ≤ (s.client.finish droppedBefore droppedAfter _).1.dropped
        rw [hdropped]
        exact h.sampled signal droppedSignals (hcallback ▸ heq)
      seen := fun _ => by
        show (s.client.finish droppedBefore droppedAfter _).1.lastDroppedSignalMessages ≤ droppedBefore
        rw [hlastEq]
        exact Nat.le_trans hlast hafter
      current := fun _ hcovered => by
        change droppedBefore = (s.client.finish droppedBefore droppedAfter _).1.dropped at hcovered
        rw [hdropped] at hcovered
        rw [hwaiting]
        show Objects.effects _ (s.client.finish droppedBefore droppedAfter _).1.inventory.plain = s.objects
        rw [hinventory, hplain, ← Objects.effects_append]
        exact hleads hcovered.symm hoverflow
      holds := trivial }

theorem Inv.runSnapshot (h : s.Inv w) {result : Except Error (List Value)}
    (hok : s.Orderly (.client (.run result)))
    (hs : s.runSnapshot result = some s') : s'.Inv w := by
  have hholds := h.holds
  obtain ⟨-, hcondition⟩ := hok
  unfold System.runSnapshot at hs
  split at hs
  · rename_i hsnapshot
    simp only [hsnapshot] at hcondition
    simp only [Client.runSnapshot, hsnapshot, Option.map_some] at hs
    obtain rfl := Option.some.inj hs
    -- the reply to an earlier call is forgotten
    have hforgets : Inv w { s with reply := none } := ⟨h.sane, h.world, h.well, h.running, h.unloaded,
      h.loads, h.lastLe,
      h.coveredLe, h.sampled, h.seen, h.current, by show Holds _ s.client.snapshot; rw [hsnapshot]; trivial⟩
    exact hforgets.snapshots (by rw [hsnapshot]; rfl) rfl ⟨Nat.le_refl _, fun _ _ => hcondition, by rintro _ ⟨⟩⟩
  · rename_i droppedBefore values hsnapshot
    rw [hsnapshot] at hholds
    split at hs
    · rename_i value hreply
      simp only [Client.runSnapshot, hsnapshot, Option.map_some] at hs
      obtain rfl := Option.some.inj hs
      refine h.snapshots (by rw [hsnapshot]; rfl) rfl ⟨hholds.1, fun first rest heq => ?_⟩
      obtain ⟨rfl, -⟩ := List.cons.inj (Except.ok.inj heq)
      exact hholds.2.2 _ hreply
    · cases hs
  · rename_i hloading hcalls
    obtain ⟨c, hc, rfl⟩ := Option.map_eq_some_iff.mp hs
    have hkept (hnot : ∀ droppedBefore droppedAfter objects,
      s.client.snapshot ≠ .finishes droppedBefore droppedAfter objects) :
        s.coveredAfter = s.covered := by
      unfold coveredAfter
      split
      · rename_i heq
        exact absurd heq (hnot _ _ _)
      · rfl
    unfold Client.runSnapshot at hc
    split at hc <;> rename_i hsnapshot
    · cases hc
    · exact absurd hsnapshot hloading
    · rw [hkept fun _ _ _ heq => by rw [hsnapshot] at heq; cases heq]
      rw [hsnapshot] at hholds
      obtain rfl := Option.some.inj hc
      exact h.snapshots (by rw [hsnapshot]; rfl) rfl ⟨hholds.1, fun _ _ heq => (hcalls _ _ hsnapshot heq).elim⟩
    · rename_i droppedBefore reply
      rw [hkept fun _ _ _ heq => by rw [hsnapshot] at heq; cases heq]
      rw [hsnapshot] at hholds
      obtain rfl := Option.some.inj hc
      have hfails (error : Error) : Inv w { s with client := { s.client with snapshot := .fails error } } :=
        h.snapshots (by rw [hsnapshot]; rfl) rfl trivial
      split
      · exact hfails _
      · exact hfails _
      · rename_i objects values
        split
        · exact h.snapshots (by rw [hsnapshot]; rfl) rfl ⟨hholds.1, hholds.2 _ _ rfl⟩
        · exact hfails _
      · exact hfails _
    · rw [hkept fun _ _ _ heq => by rw [hsnapshot] at heq; cases heq]
      split at hc
      · cases hc
      · obtain rfl := Option.some.inj hc
        exact h.fails (sane_clear _) rfl rfl rfl rfl rfl rfl
    · rw [hkept fun _ _ _ heq => by rw [hsnapshot] at heq; cases heq]
      rw [hsnapshot] at hholds
      split at hc
      · cases hc
      · obtain rfl := Option.some.inj hc
        exact h.snapshots (by rw [hsnapshot]; rfl) rfl hholds
    · rw [hkept fun _ _ _ heq => by rw [hsnapshot] at heq; cases heq]
      rw [hsnapshot] at hholds
      obtain rfl := Option.some.inj hc
      exact h.snapshots (by rw [hsnapshot]; rfl) rfl ⟨hholds.1, h.lastLe, hholds.2⟩
    · simp only [hsnapshot] at hcondition
      exact h.finish hsnapshot hcondition (Option.some.inj hc).symm

theorem Inv.hears (h : s.Inv w) (heard : Nat) : Inv w { s with heard } :=
  ⟨h.sane, h.world, h.well, h.running, h.unloaded, h.loads, h.lastLe, h.coveredLe, h.sampled, h.seen,
    h.current, h.holds⟩

theorem step_inv {action : Action} (h : s.Inv w) (hok : s.Orderly action) (hs : s.step action = some s') :
    s'.Inv w := by
  cases action with
  | change signal =>
    obtain rfl := Option.some.inj hs
    exact h.change hok
  | deliver =>
    simp only [step] at hs
    split at hs
    · cases hs
    · rename_i hbus
      obtain ⟨c, hc, rfl⟩ := Option.map_eq_some_iff.mp hs
      exact h.deliver hbus hc
  | discard index counted =>
    simp only [step] at hs
    split at hs
    · obtain rfl := Option.some.inj hs
      have hcounted : counted = true := hok
      rw [if_pos hcounted]
      exact h.discard index
    · cases hs
  | answer entries =>
    simp only [step] at hs
    split at hs
    · rename_i hsnapshot
      obtain rfl := Option.some.inj hs
      exact h.answer hsnapshot hok
    · cases hs
  | client action =>
    cases action with
    | run result => exact h.runSnapshot hok hs
    | signal | drop => cases hs
    | callback =>
      obtain ⟨c, hc, rfl⟩ := Option.map_eq_some_iff.mp hs
      exact (h.callback hok hc).hears _
    | recovery =>
      obtain ⟨c, hc, rfl⟩ := Option.map_eq_some_iff.mp hs
      exact h.recovery hok hc
    | snapshot =>
      obtain ⟨c, hc, rfl⟩ := Option.map_eq_some_iff.mp hs
      simp only [Client.step] at hc
      split at hc
      · obtain rfl := Option.some.inj hc
        exact h.begins .application s.client.recovery
      · cases hc
    | event =>
      obtain ⟨c, hc, rfl⟩ := Option.map_eq_some_iff.mp hs
      simp only [Client.step] at hc
      split at hc
      · cases hc
      · obtain rfl := Option.some.inj hc
        exact h.frame h.sane rfl rfl rfl rfl rfl rfl rfl rfl rfl h.sampled
    | startDiscovery adapter =>
      obtain rfl := Option.some.inj hs
      have hplain := unsee_plain s.client.inventory adapter
      exact h.frame (sane_congr (unsee_sane h.sane adapter) rfl rfl rfl) hplain rfl rfl rfl rfl rfl
        rfl rfl rfl h.sampled
    | discoveryStarted adapter started =>
      obtain rfl := Option.some.inj hs
      cases started with
      | true => exact h.frame (sane_congr h.sane rfl rfl rfl) rfl rfl rfl rfl rfl rfl rfl rfl rfl h.sampled
      | false =>
        have hplain := unsee_plain s.client.inventory adapter
        exact h.frame (sane_congr (unsee_sane h.sane adapter) rfl rfl rfl) hplain rfl rfl rfl rfl
          rfl rfl rfl rfl h.sampled
    | stopDiscovery =>
      obtain rfl := Option.some.inj hs
      exact h.frame (sane_congr h.sane rfl rfl rfl) rfl rfl rfl rfl rfl rfl rfl rfl rfl h.sampled

-- ---------------------------------------------------------------------------
-- What was discarded and is noticed
-- ---------------------------------------------------------------------------

/-- What was discarded when the counter was looked at has been compared, or will be. -/
def Hears (s : System) : Prop :=
  match s.client.callback with
  | .locks _ droppedSignals => s.heard ≤ droppedSignals
  | _ => s.heard ≤ s.client.lastDroppedSignalMessages

theorem Hears.congr (h : s.Hears) (hheard : s'.heard = s.heard)
    (hcallback : s'.client.callback = s.client.callback)
    (hlast : s'.client.lastDroppedSignalMessages = s.client.lastDroppedSignalMessages) : s'.Hears := by
  unfold Hears at h ⊢
  rw [hheard, hcallback, hlast]
  exact h

/-- Where no signal is to be compared, the last comparison counts. -/
theorem Hears.le (h : s.Hears) (hpending : s.client.callback.pending = []) :
    s.heard ≤ s.client.lastDroppedSignalMessages := by
  unfold Hears at h
  split at h
  · rename_i hcallback
    rw [hcallback] at hpending
    cases hpending
  · exact h

theorem hears_of_le (hpending : s.client.callback.pending = [])
    (hle : s.heard ≤ s.client.lastDroppedSignalMessages) : s.Hears := by
  unfold Hears
  split
  · rename_i hcallback
    rw [hcallback] at hpending
    cases hpending
  · exact hle

theorem runSnapshot_fields {c d : Client} {result : Except Error (List Value)}
    (h : c.runSnapshot result = some d) :
    d.callback = c.callback ∧ d.lastDroppedSignalMessages = c.lastDroppedSignalMessages := by
  unfold Client.runSnapshot at h
  split at h
  · cases h
  · cases h
    exact ⟨rfl, rfl⟩
  · cases h
    exact ⟨rfl, rfl⟩
  · cases h
    exact ⟨rfl, rfl⟩
  · split at h
    · cases h
    · cases h
      exact ⟨rfl, rfl⟩
  · split at h
    · cases h
    · cases h
      exact ⟨rfl, rfl⟩
  · cases h
    exact ⟨rfl, rfl⟩
  · rename_i droppedBefore droppedAfter objects hsnapshot
    obtain ⟨-, -, hlast, -, hcallback⟩ := finish_fields c droppedBefore droppedAfter objects
    cases h
    exact ⟨hcallback, hlast⟩

theorem process_last (c : Client) (signal : Signal) (droppedSignals : Nat) :
    (c.process signal droppedSignals).1.lastDroppedSignalMessages = droppedSignals := by
  unfold Client.process
  split
  · dsimp only
    split <;> rfl
  · rename_i hsame
    have hlast : droppedSignals = c.lastDroppedSignalMessages := not_not.mp hsame
    split
    · split <;> exact hlast.symm
    · exact hlast.symm

theorem runCallback_hears {c : Client} (h : s.Hears) (hs : s.client.runCallback = some c) :
    Hears { s with client := c, heard := s.heardAfter } := by
  have hkept (hnot : ∀ signal, s.client.callback ≠ .called signal) : s.heardAfter = s.heard := by
    unfold heardAfter
    split
    · rename_i hcalled
      exact absurd hcalled (hnot _)
    · rfl
  unfold Client.runCallback at hs
  split at hs <;> rename_i hcallback
  · cases hs
  · obtain rfl := Option.some.inj hs
    have hsame : s.heardAfter = s.client.dropped := by
      unfold heardAfter
      rw [hcallback]
    exact Nat.le_of_eq hsame
  · rename_i signal droppedSignals
    rw [hkept fun _ heq => by rw [hcallback] at heq; cases heq]
    unfold Hears at h
    rw [hcallback] at h
    split at hs
    · cases hs
    · obtain rfl := Option.some.inj hs
      refine hears_of_le ?_ ?_
      · dsimp only
        split
        · rfl
        · exact emitNext_pending _
      · show s.heard ≤ (s.client.process signal droppedSignals).1.lastDroppedSignalMessages
        rw [process_last]
        exact h
  · rw [hkept fun _ heq => by rw [hcallback] at heq; cases heq]
    obtain rfl := Option.some.inj hs
    exact hears_of_le (emitNext_pending _) (h.le (by rw [hcallback]; rfl))
  · rename_i pc events
    rw [hkept fun _ heq => by rw [hcallback] at heq; cases heq]
    obtain rfl := Option.some.inj hs
    refine hears_of_le ?_ ?_
    · dsimp only
      split
      · rfl
      · exact emitNext_pending _
    · show s.heard ≤ (s.client.runEmit pc).1.lastDroppedSignalMessages
      rw [(runEmit_fields s.client pc).2]
      exact h.le (by rw [hcallback]; rfl)

theorem runRecovery_fields {c d : Client} (h : c.runRecovery = some d) :
    d.callback = c.callback ∧ d.lastDroppedSignalMessages = c.lastDroppedSignalMessages := by
  unfold Client.runRecovery at h
  split at h
  · split at h
    · cases h
      exact ⟨rfl, rfl⟩
    · cases h
  · split at h
    · cases h
      exact ⟨rfl, rfl⟩
    · cases h
  · cases h
  · rename_i pc hrecovery
    cases h
    exact runEmit_fields c pc

theorem runSnapshot_hears {result : Except Error (List Value)} (h : s.Hears)
    (hs : s.runSnapshot result = some s') : s'.Hears := by
  unfold System.runSnapshot at hs
  split at hs
  · obtain ⟨c, hc, rfl⟩ := Option.map_eq_some_iff.mp hs
    exact h.congr rfl (runSnapshot_fields hc).1 (runSnapshot_fields hc).2
  · split at hs
    · obtain ⟨c, hc, rfl⟩ := Option.map_eq_some_iff.mp hs
      exact h.congr rfl (runSnapshot_fields hc).1 (runSnapshot_fields hc).2
    · cases hs
  · obtain ⟨c, hc, rfl⟩ := Option.map_eq_some_iff.mp hs
    exact h.congr rfl (runSnapshot_fields hc).1 (runSnapshot_fields hc).2

theorem step_hears {action : Action} (h : s.Hears) (hs : s.step action = some s') : s'.Hears := by
  cases action with
  | change signal =>
    obtain rfl := Option.some.inj hs
    exact h.congr rfl rfl rfl
  | deliver =>
    simp only [step] at hs
    split at hs
    · cases hs
    · obtain ⟨c, hc, rfl⟩ := Option.map_eq_some_iff.mp hs
      simp only [Client.step] at hc
      split at hc <;> rename_i hcallback
      · obtain rfl := Option.some.inj hc
        exact h.le (by rw [hcallback]; rfl)
      · cases hc
  | discard index counted =>
    simp only [step] at hs
    split at hs
    · obtain rfl := Option.some.inj hs
      cases counted <;> exact h.congr rfl rfl rfl
    · cases hs
  | answer entries =>
    simp only [step] at hs
    split at hs
    · obtain rfl := Option.some.inj hs
      exact h.congr rfl rfl rfl
    · cases hs
  | client action =>
    cases action with
    | run result => exact runSnapshot_hears h hs
    | signal | drop => cases hs
    | callback =>
      obtain ⟨c, hc, rfl⟩ := Option.map_eq_some_iff.mp hs
      exact runCallback_hears h hc
    | recovery =>
      obtain ⟨c, hc, rfl⟩ := Option.map_eq_some_iff.mp hs
      exact h.congr rfl (runRecovery_fields hc).1 (runRecovery_fields hc).2
    | snapshot =>
      obtain ⟨c, hc, rfl⟩ := Option.map_eq_some_iff.mp hs
      simp only [Client.step] at hc
      split at hc
      · obtain rfl := Option.some.inj hc
        exact h.congr rfl rfl rfl
      · cases hc
    | event =>
      obtain ⟨c, hc, rfl⟩ := Option.map_eq_some_iff.mp hs
      simp only [Client.step] at hc
      split at hc
      · cases hc
      · obtain rfl := Option.some.inj hc
        exact h.congr rfl rfl rfl
    | startDiscovery | discoveryStarted | stopDiscovery =>
      obtain rfl := Option.some.inj hs
      exact h.congr rfl rfl rfl

-- ---------------------------------------------------------------------------
-- Runs
-- ---------------------------------------------------------------------------

/-- The maps have the adapters and the devices of BlueZ, and no others. -/
structure Describes (i : Inventory) (objects : Objects) : Prop where
  adapters : i.adapters = objects.adapters
  devices : ∀ path device, objects.devices path = some device ↔
    ∃ identity stored, i.devices identity = some stored ∧ stored.objectPath = path ∧ stored.unseen = device

theorem describes_of_plain {i : Inventory} {objects : Objects} (h : i.Inverse) (hplain : i.plain = objects) :
    Describes i objects where
  adapters := by rw [← hplain]; rfl
  devices path device := by
    rw [← hplain]
    show Option.map Device.unseen (i.findDeviceByPath path) = some device ↔ _
    rw [Option.map_eq_some_iff]
    constructor
    · rintro ⟨stored, hstored, hdevice⟩
      obtain ⟨hpath, identity, hidentity⟩ := h.find_eq.mp hstored
      exact ⟨identity, stored, hidentity, hpath, hdevice⟩
    · rintro ⟨identity, stored, hidentity, hpath, hdevice⟩
      exact ⟨stored, h.find_eq.mpr ⟨hpath, identity, hidentity⟩, hdevice⟩

/-- Where the client is available, every discarded signal has led to a snapshot, and the inventory
is what BlueZ has. -/
theorem converges {objects : Objects} (h : ReachesBy step Orderly { objects } s) (hquiescent : s.Quiescent)
    (hnoticed : s.Noticed) (havailable : s.client.inventory.available) :
    s.covered = s.client.dropped ∧ Describes s.client.inventory s.objects := by
  have hinv : s.Inv objects := h.invariant (initial_inv objects) fun hold hok hs => step_inv hold hok hs
  have hcovered : s.covered = s.client.dropped := by
    obtain hheard | hcovered := hnoticed
    · have hhears : s.Hears := h.invariant (Nat.le_refl 0) fun hold _ hs => step_hears hold hs
      have hnoticed := hhears.le hquiescent.callback
      have hseen := hinv.seen havailable
      have hle := hinv.coveredLe
      omega
    · exact hcovered
  have hunloaded : s.client.loading = false := eq_false_of_ne_true fun hloading => by
    have hrunning := hinv.loads havailable hloading
    rw [hquiescent.snapshot] at hrunning
    cases hrunning
  have hwaiting : s.waiting = [] := by
    rw [waiting, hinv.unloaded hunloaded, hquiescent.callback, hquiescent.bus]
    rfl
  have hcurrent := hinv.current havailable hcovered
  rw [hwaiting] at hcurrent
  exact ⟨hcovered, describes_of_plain hinv.sane.1 hcurrent⟩

/-- A condition that can be evaluated, and is enough for a step to be orderly. -/
def checked (s : System) : Action → Bool
  | .change _ | .answer _ => false
  | .deliver => true
  | .discard _ counted => counted
  | .client action => decide (s.client.Undisturbed action) &&
    match action with
    | .run _ => match s.client.snapshot with
      | .loading => s.waiting.isEmpty
      | .finishes _ _ objects => reloadsFree objects s.client.stagedSignals s.client.inventory
      | _ => true
    | .callback => match s.client.callback with
      | .locks signal _ => announced s.client.inventory signal
      | _ => true
    | _ => true

theorem orderly_of_checked {action : Action} (h : s.checked action = true) : s.Orderly action := by
  cases action with
  | change | answer => cases h
  | deliver => trivial
  | discard index counted => exact h
  | client action =>
    simp only [checked, Bool.and_eq_true, decide_eq_true_eq] at h
    refine ⟨h.1, ?_⟩
    have hcondition := h.2
    split at hcondition
    · split at hcondition
      · rw [List.isEmpty_iff.mp hcondition]
        exact List.nil_suffix
      · exact hcondition
      · trivial
    · split at hcondition
      · exact fun _ _ _ => hcondition
      · trivial
    · trivial

/-- The steps of a part of a run. -/
def ran (s : System) (actions : List Action) : System :=
    (execBy step (fun s a => s.checked a = true) s actions).getD s

theorem reaches_ran {actions : List Action} (h : ReachesBy step Orderly {} s)
    (hruns : (execBy step (fun s a => s.checked a = true) s actions).isSome) :
    ReachesBy step Orderly {} (s.ran actions) :=
  h.trans ((ReachesBy.of_isSome_by actions hruns).mono fun _ _ => orderly_of_checked)

theorem checked_objects {action : Action} (h : s.checked action = true) (hs : s.step action = some s') :
    s'.objects = s.objects := by
  cases action with
  | change | answer => cases h
  | deliver =>
    simp only [step] at hs
    split at hs
    · cases hs
    · obtain ⟨c, hc, rfl⟩ := Option.map_eq_some_iff.mp hs
      rfl
  | discard index counted =>
    simp only [step] at hs
    split at hs
    · obtain rfl := Option.some.inj hs
      rfl
    · cases hs
  | client action =>
    cases action with
    | run result =>
      change s.runSnapshot result = some s' at hs
      unfold runSnapshot at hs
      split at hs
      · obtain ⟨c, hc, rfl⟩ := Option.map_eq_some_iff.mp hs
        rfl
      · split at hs
        · obtain ⟨c, hc, rfl⟩ := Option.map_eq_some_iff.mp hs
          rfl
        · cases hs
      · obtain ⟨c, hc, rfl⟩ := Option.map_eq_some_iff.mp hs
        rfl
    | signal | drop => cases hs
    | snapshot | callback | recovery | event =>
      obtain ⟨c, hc, rfl⟩ := Option.map_eq_some_iff.mp hs
      rfl
    | startDiscovery | discoveryStarted | stopDiscovery =>
      obtain rfl := Option.some.inj hs
      rfl

theorem ran_objects {actions : List Action}
    (hruns : (execBy step (fun s a => s.checked a = true) s actions).isSome) :
    (s.ran actions).objects = s.objects := by
  have hreaches := ReachesBy.of_isSome_by actions hruns
  exact hreaches.invariant (I := fun t => t.objects = s.objects) rfl fun hold hok hs =>
    (checked_objects hok hs).trans hold

/-- `snapshot` until BlueZ is asked, and the rest of it. -/
def asks : List Action := [.client .snapshot, .client (.run (.ok []))]

def ends : List Action := List.replicate 5 (.client (.run (.ok [])))

def asked : System := ran {} asks

def answered : System := { asked with reply := some (.dictionary "o" "a{sa{sv}}" []) }

def loaded : System := answered.ran ends

theorem loaded_reached : ReachesBy step Orderly {} loaded := by
  have hasked : ReachesBy step Orderly {} asked := reaches_ran .refl (by decide +kernel)
  have hanswered : ReachesBy step Orderly {} answered := .tail (.answer []) hasked rfl rfl
  exact reaches_ran hanswered (by decide +kernel)

/-- BlueZ has a new adapter. -/
def changed : System :=
  { loaded with
    objects := loaded.objects.effect addsAdapter, sent := loaded.sent ++ [addsAdapter], bus :=
      loaded.bus ++ [addsAdapter] }

theorem addsAdapter_wellFormed : WellFormed addsAdapter := by
  refine .interfacesAdded "/" Client.adapterPath ⟨[(.string kAdapter, Client.addressed "A")], rfl,
    fun entry hentry => ?_⟩
  obtain rfl := List.mem_singleton.mp hentry
  refine ⟨⟨_, rfl⟩, [(.string "Address", .variant (.string "A"))], rfl, fun property hproperty => ?_⟩
  obtain rfl := List.mem_singleton.mp hproperty
  exact ⟨⟨_, rfl⟩, _, rfl⟩

theorem changed_reached : ReachesBy step Orderly {} changed :=
    .tail (.change addsAdapter) loaded_reached addsAdapter_wellFormed rfl

/-- The signal is handled. -/
def handles : List Action := .deliver :: List.replicate 3 (.client .callback)

theorem converges_handled :
    ∃ s : System, (s.client.inventory.adapters Client.adapterPath).isSome ∧
      Describes s.client.inventory s.objects := by
  have h : ReachesBy step Orderly {} (changed.ran handles) := reaches_ran changed_reached (by decide +kernel)
  have hquiescent : Quiescent (changed.ran handles) :=
    ⟨List.isEmpty_iff.mp (by decide +kernel), List.isEmpty_iff.mp (by decide +kernel), by decide +kernel⟩
  exact ⟨_, by decide +kernel, (converges h hquiescent (.inl (by decide +kernel)) (by decide +kernel)).2⟩

/-- What is taken for granted of BlueZ. -/
def Assumed (s : System) : Action → Prop
  | .change signal => WellFormed signal
  | .answer entries => described entries = s.objects
  | _ => True

theorem Orderly.assumed {action : Action} (h : s.Orderly action) : s.Assumed action := by
  cases action with
  | change | answer => exact h
  | deliver | discard | client => trivial

/-- The last signal is discarded, and nothing is handled any more. -/
theorem diverges : ¬ ∀ s : System, ReachesBy step Assumed {} s → (∀ path, s.objects.devices path = none) →
    s.Quiescent →
    s.client.inventory.recoveryRequested = false → s.client.inventory.available →
      Describes s.client.inventory s.objects := by
  intro h
  have hreaches : ReachesBy step Orderly {} (changed.ran [.discard 0 true]) :=
    reaches_ran changed_reached (by decide +kernel)
  have hquiescent : Quiescent (changed.ran [.discard 0 true]) :=
    ⟨List.isEmpty_iff.mp (by decide +kernel), List.isEmpty_iff.mp (by decide +kernel), by decide +kernel⟩
  have hloaded : loaded.objects = {} := (ran_objects (by decide +kernel)).trans (ran_objects (s :=
    {}) (by decide +kernel))
  have hobjects : (changed.ran [.discard 0 true]).objects = Objects.effect {} addsAdapter := by
    rw [ran_objects (by decide +kernel), ← hloaded]
    rfl
  have hnone (path : String) : (changed.ran [.discard 0 true]).objects.devices path = none := by
    rw [hobjects]
    rfl
  have hadapters := (h _ (hreaches.mono fun _ _ => Orderly.assumed) hnone hquiescent (by decide +kernel)
    (by decide +kernel)).adapters
  have haddress := congrArg (fun adapters => (adapters Client.adapterPath).isSome) hadapters
  revert haddress
  decide +kernel

end System
end Dmn.Bluez
