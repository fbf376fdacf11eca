import Dmn.Bluez.Events

/-!
# Discovery

`startDiscovery` and `stopDiscovery` hold `m_discovery_mutex` throughout, but
`m_mutex` only where they read or write: a signal may be applied while a call
of the D-Bus client is under way, or before its reply is recorded. Their
sections are those of the client, whose other steps go on in between: a signal
is applied, or staged for a snapshot, or swallowed when others were discarded.
-/

namespace Dmn.Bluez

open Dmn.Lib

/-- A signal that says that BlueZ had an owner, which is not the owner any more. -/
def disowns (signal : Signal) : Bool :=
  match signal.arguments with
  | [name, oldOwner, newOwner] =>
    signal.member = "NameOwnerChanged" && match name.asString, oldOwner.asString, newOwner.asString with
      | .ok name, .ok oldOwner, .ok _ => name = kBluez && oldOwner ≠ ""
      | _, _, _ => false
  | _ => false

namespace Inventory

def disowned (i : Inventory) : Inventory :=
  { i.clear with discoveryActive := false, discoveryStarting := false, discoveryAdapter := "" }

/-- What the checks of `startDiscovery` ask for. -/
def startable (i : Inventory) (adapterPath : String) : Bool :=
  match i.adapters adapterPath with
  | none => false
  | some adapter => i.available && adapter.powered.getD false && !i.discoveryActive

end Inventory

namespace Client

/-- The section of `onSignal` for a signal that says that the owner is lost. -/
def disowned (c : Client) : Action → Bool
  | .callback => match c.callback with
    | .locks signal _ => disowns signal
    | _ => false
  | _ => false

/-- The section of `onSignal` applies its signal: none has been discarded, and no snapshot is loading. -/
def applies (c : Client) : Bool :=
  match c.callback with
  | .locks _ droppedSignals => droppedSignals = c.lastDroppedSignalMessages && !c.loading
  | _ => false

/-- A section of `startDiscovery` or `stopDiscovery`. -/
def Action.discovers : Action → Bool
  | .startDiscovery _ | .discoveryStarted .. | .stopDiscovery => true
  | _ => false

end Client

/-- Where the call is that has `m_discovery_mutex`. -/
inductive DiscoveryPc
  | idle
  -- In `SetDiscoveryFilter`.
  | filters (adapterPath : String)
  -- In `StartDiscovery`.
  | starts (adapterPath : String)
  -- Its reply has not been recorded.
  | started (adapterPath : String) (ok : Bool)
  -- In `StopDiscovery`.
  | stops (adapterPath : String)
  | stopped
  deriving DecidableEq

structure Discovery where
  client : Client := {}
  pc : DiscoveryPc := .idle
  -- The adapter of the latest call that has got so far as to start.
  began : String := ""
  -- A `StartDiscovery` has succeeded, and since then no stop has been recorded
  -- and `onSignal` has been told of no lost owner.
  held : Bool := false

namespace Discovery

inductive Action
  | startDiscovery (adapterPath : String)
  | stopDiscovery
  -- The D-Bus client answers.
  | reply (ok : Bool)
  -- The reply is recorded.
  | record
  -- Any other step of the client: of `snapshot`, of `onSignal` or of the recovery.
  | client (action : Client.Action)

def step (d : Discovery) : Action → Option Discovery
  | .startDiscovery adapterPath =>
    match d.pc with
    | .idle =>
      some (if d.client.inventory.startable adapterPath then { d with pc := .filters adapterPath } else d)
    | _ => none
  | .stopDiscovery =>
    match d.pc with
    | .idle =>
      some (if d.client.inventory.discoveryActive then
        { d with pc := .stops d.client.inventory.discoveryAdapter } else d)
    | _ => none
  | .reply ok =>
    match d.pc with
    | .filters adapterPath =>
      if ok then
        (d.client.step (.startDiscovery adapterPath)).map fun client =>
          { d with client, pc := .starts adapterPath, began := adapterPath }
      else some { d with pc := .idle }
    | .starts adapterPath => some { d with pc := .started adapterPath ok, held := d.held || ok }
    | .stops _ => some { d with pc := if ok then .stopped else .idle }
    | _ => none
  | .record =>
    match d.pc with
    | .started adapterPath ok =>
      (d.client.step (.discoveryStarted adapterPath ok)).map fun client => { d with client, pc := .idle }
    | .stopped => (d.client.step .stopDiscovery).map fun client => { d with client, pc := .idle, held := false }
    | _ => none
  | .client action =>
    if action.discovers then none
    else (d.client.step action).map fun client => { d with client, held := d.held && !d.client.disowned action }

/-- When a success is recorded, no loss of the owner has been applied since the
start; and the loss of the owner under a session is applied at once, neither
staged for a snapshot nor swallowed. An object path is never empty. -/
def Orderly (d : Discovery) : Action → Prop
  | .startDiscovery adapterPath => adapterPath ≠ ""
  | .record => ∀ adapterPath, d.pc = .started adapterPath true → d.client.inventory.discoveryStarting = true
  | .client action => d.held = true → d.client.disowned action = true → d.client.applies = true
  | _ => True

/-- No paths are empty: what every run has. -/
def Proper : Action → Prop
  | .startDiscovery adapterPath => adapterPath ≠ ""
  | _ => True

instance (action : Action) : Decidable (Proper action) := by
  unfold Proper
  split <;> infer_instance

instance (d : Discovery) (action : Action) : Decidable (d.Orderly action) :=
  match action with
  | .startDiscovery _ => inferInstanceAs (Decidable (_ ≠ _))
  | .record =>
    match hpc : d.pc with
    | .started adapterPath true =>
      decidable_of_iff (d.client.inventory.discoveryStarting = true) ⟨fun h _ _ => h,
        fun h => h adapterPath hpc⟩
    | .started _ false | .idle | .filters _ | .starts _ | .stops _ | .stopped =>
      isTrue fun adapterPath heq => by cases hpc.symm.trans heq
  | .client _ => inferInstanceAs (Decidable (_ → _ → _))
  | .stopDiscovery | .reply _ => isTrue trivial

-- ---------------------------------------------------------------------------
-- Signals
-- ---------------------------------------------------------------------------

/-- What an inventory says of the discovery. -/
def session (i : Inventory) : Bool × Bool × String := (i.discoveryActive, i.discoveryStarting,
    i.discoveryAdapter)

/-- The discovery of an inventory is as it was, or over. -/
def Spared (i j : Inventory) : Prop := session j = session i ∨ session j = (false, false, "")

theorem storeDevice_session (i : Inventory) (device : Device) : session (i.storeDevice device).1 =
    session i := by
  have hcleared (j : Inventory) (prior : Option DeviceIdentity) :
      session (j.cleared (i.deviceIdentity device) prior) = session j :=
    Inventory.cleared_frame (f := session) (fun _ _ => rfl) j _ prior
  unfold Inventory.storeDevice
  dsimp only
  cases i.devices (i.deviceIdentity device) with
  | none => exact hcleared i _
  | some existing =>
    refine (hcleared _ _).trans ?_
    dsimp only
    split <;> rfl

theorem spared_stable (i : Inventory) : Stable (Spared i) where
  disowns _ _ := .inr rfl
  requests _ h := h
  adds _ _ h := h
  changes _ _ _ _ h _ _ := h
  removes _ _ h := h
  stores j device h := by
    rw [Spared, storeDevice_session]
    exact h
  setsDevice _ _ _ h := h
  setsPath _ _ _ h := h

theorem loadAdapters_spared (i : Inventory) (objects : List (Value × Value)) : Keeps (Spared i)
    (loadAdapters objects) := by
  induction objects with
  | nil => exact .pure _
  | cons object objects ih =>
    unfold loadAdapters
    refine .reads fun path => .reads fun properties => ?_
    dsimp only
    split
    · exact .reads fun adapter => .bind (.modify fun _ h => h) fun _ => ih
    · exact ih

theorem loadDevices_spared (i : Inventory) (previousDevices : DeviceIdentity → Option Device)
    (objects : List (Value × Value)) : Keeps (Spared i) (loadDevices previousDevices objects) := by
  induction objects with
  | nil => exact .pure _
  | cons object objects ih =>
    unfold loadDevices
    refine .reads fun path => .reads fun properties => ?_
    dsimp only
    split
    · exact .reads fun parsed => .bind (.modify fun j h => (spared_stable i).stores j _ h) fun _ => ih
    · exact ih

theorem replay_spared (i : Inventory) (signals : List Signal) : Keeps (Spared i) (replay signals) := by
  induction signals with
  | nil => exact .pure _
  | cons signal signals ih =>
    unfold replay
    exact .reads fun lost => .bind (.modify fun _ h => (spared_stable i).applySignal h signal) fun _ =>
      .bind ih fun _ => .pure _

theorem reload_spared (i : Inventory) (objects : Value) (staged : List Signal) : Keeps (Spared i)
    (reload objects staged) :=
  .get fun _ => .bind (.bind (.modify fun _ h => h) fun _ => .reads fun objects =>
    .bind (loadAdapters_spared i objects) fun _ => loadDevices_spared i _ objects) fun _ =>
      replay_spared i staged

section
variable {c c' : Client}

theorem finish_spared (c : Client) (droppedBefore droppedAfter : Nat) (objects : Value) :
    Spared c.inventory (c.finish droppedBefore droppedAfter objects).1.inventory := by
  unfold Client.finish
  split
  · exact .inl rfl
  · split
    · exact .inl rfl
    · have hreload := reload_spared c.inventory objects c.stagedSignals c.inventory (.inl rfl)
      unfold final at hreload
      split <;> rename_i heq <;> rw [heq] at hreload
      · exact hreload
      · split <;> exact hreload

theorem runSnapshot_spared {result : Except Error (List Value)} (hs : c.runSnapshot result = some c') :
    Spared c.inventory c'.inventory := by
  unfold Client.runSnapshot at hs
  split at hs
  · cases hs
  · obtain rfl := Option.some.inj hs
    exact .inl rfl
  · obtain rfl := Option.some.inj hs
    exact .inl rfl
  · obtain rfl := Option.some.inj hs
    exact .inl rfl
  · split at hs
    · cases hs
    · obtain rfl := Option.some.inj hs
      exact .inl rfl
  · split at hs
    · cases hs
    · obtain rfl := Option.some.inj hs
      exact .inl rfl
  · obtain rfl := Option.some.inj hs
    exact .inl rfl
  · obtain rfl := Option.some.inj hs
    exact finish_spared c _ _ _

theorem process_spared (c : Client) (signal : Signal) (droppedSignals : Nat) :
    Spared c.inventory (c.process signal droppedSignals).1.inventory := by
  unfold Client.process
  split
  · dsimp only
    split <;> exact .inl rfl
  · split
    · split <;> exact .inl rfl
    · exact (spared_stable c.inventory).applySignal (.inl rfl) signal

theorem runEmit_spared (c : Client) (pc : EmitPc) : Spared c.inventory (c.runEmit pc).1.inventory := by
  unfold Client.runEmit
  split
  · split <;> exact .inl rfl
  · exact .inl rfl
  · exact .inl rfl

theorem runCallback_spared (hs : c.runCallback = some c') : Spared c.inventory c'.inventory := by
  unfold Client.runCallback at hs
  split at hs
  · cases hs
  · obtain rfl := Option.some.inj hs
    exact .inl rfl
  · split at hs
    · cases hs
    · obtain rfl := Option.some.inj hs
      exact process_spared c _ _
  · obtain rfl := Option.some.inj hs
    exact .inl rfl
  · obtain rfl := Option.some.inj hs
    exact runEmit_spared c _

theorem runRecovery_spared (hs : c.runRecovery = some c') : Spared c.inventory c'.inventory := by
  unfold Client.runRecovery at hs
  split at hs
  · split at hs
    · obtain rfl := Option.some.inj hs
      exact .inl rfl
    · cases hs
  · split at hs
    · obtain rfl := Option.some.inj hs
      exact .inl rfl
    · cases hs
  · cases hs
  · obtain rfl := Option.some.inj hs
    exact runEmit_spared c _

/-- What is not a call for the discovery leaves it as it is, or ends it. -/
theorem step_spared {action : Client.Action} (hother : action.discovers = false)
    (hs : c.step action = some c') :
    Spared c.inventory c'.inventory := by
  cases action with
  | snapshot =>
    simp only [Client.step] at hs
    split at hs
    · obtain rfl := Option.some.inj hs
      exact .inl rfl
    · cases hs
  | run result => exact runSnapshot_spared hs
  | signal signal =>
    simp only [Client.step] at hs
    split at hs
    · obtain rfl := Option.some.inj hs
      exact .inl rfl
    · cases hs
  | callback => exact runCallback_spared hs
  | recovery => exact runRecovery_spared hs
  | event =>
    simp only [Client.step] at hs
    split at hs
    · cases hs
    · obtain rfl := Option.some.inj hs
      exact .inl rfl
  | drop =>
    obtain rfl := Option.some.inj hs
    exact .inl rfl
  | startDiscovery | discoveryStarted | stopDiscovery => cases hother

end

/-- After a loss of the owner the discovery is over. -/
theorem applySignal_disowns {signal : Signal} (h : disowns signal = true) (i : Inventory) :
    (applySignal signal ⟨i, []⟩).inventory.discoveryActive = false ∧
      (applySignal signal ⟨i, []⟩).inventory.discoveryStarting = false := by
  obtain ⟨member, path, arguments⟩ := signal
  unfold disowns at h
  dsimp only at h
  split at h
  · rename_i name oldOwner newOwner
    obtain ⟨hmember, hvalues⟩ := Bool.and_eq_true_iff.mp h
    split at hvalues
    · rename_i name' oldOwner' newOwner' hname hold hnew
      obtain ⟨hkBluez, hne⟩ := Bool.and_eq_true_iff.mp hvalues
      obtain rfl := of_decide_eq_true hmember
      have hkBluez := of_decide_eq_true hkBluez
      have hne : oldOwner' ≠ "" := of_decide_eq_true hne
      have hsame : (applySignal ⟨"NameOwnerChanged", path, [name, oldOwner, newOwner]⟩ ⟨i, []⟩).inventory =
          if newOwner' ≠ "" then { i.disowned with recoveryRequested := true } else i.disowned := by
        rw [applySignal_inventory]
        show (final (nameOwnerChanged name oldOwner newOwner) ⟨i, []⟩).inventory = _
        unfold nameOwnerChanged
        rw [final_reads_ok hname, if_pos hkBluez, final_reads_ok hold, final_reads_ok hnew]
        dsimp only
        rw [if_pos hne]
        split <;> rfl
      rw [hsame]
      split <;> exact ⟨rfl, rfl⟩
    · cases hvalues
  · cases h

/-- The section of `onSignal` that applies the loss of the owner ends the discovery. -/
theorem step_disowns {c c' : Client} {action : Client.Action} (hdisowned : c.disowned action = true)
    (happlies : c.applies = true) (hs : c.step action = some c') :
    c'.inventory.discoveryActive = false ∧ c'.inventory.discoveryStarting = false := by
  cases action with
  | callback =>
    cases hcallback : c.callback with
    | locks signal droppedSignals =>
      have hdisowns : disowns signal = true := by simpa only [Client.disowned, hcallback] using hdisowned
      obtain ⟨hdropped, hloading⟩ : droppedSignals = c.lastDroppedSignalMessages ∧ c.loading = false := by
        simpa [Client.applies, hcallback] using happlies
      simp only [Client.step, Client.runCallback, hcallback] at hs
      split at hs
      · cases hs
      · obtain rfl := Option.some.inj hs
        have hprocess : (c.process signal droppedSignals).1.inventory = (applySignal signal ⟨c.inventory,
          []⟩).inventory := by
          rw [Client.process, if_neg (not_not.mpr hdropped), if_neg (ne_true_of_eq_false hloading)]
        dsimp only
        rw [hprocess]
        exact applySignal_disowns hdisowns c.inventory
    | idle | called | requests | emits => simp [Client.disowned, hcallback] at hdisowned
  | _ => cases hdisowned

-- ---------------------------------------------------------------------------
-- Runs
-- ---------------------------------------------------------------------------

/-- A call that may have found no session has not recorded one. -/
def unowned : DiscoveryPc → Bool
  | .filters _ | .starts _ | .started _ _ => true
  | .idle | .stops _ | .stopped => false

structure Sound (d : Discovery) : Prop where
  active : d.client.inventory.discoveryActive = true →
    d.held = true ∧ d.client.inventory.discoveryAdapter = d.began ∧ d.began ≠ "" ∧ unowned d.pc = false
  starting : d.client.inventory.discoveryStarting = true →
    d.client.inventory.discoveryAdapter = d.began ∧ d.began ≠ "" ∧
      (d.pc = .starts d.began ∨ ∃ ok, d.pc = .started d.began ok ∧ (ok = true → d.held = true))
  filters : ∀ adapterPath, d.pc = .filters adapterPath → adapterPath ≠ "" ∧
    d.client.inventory.discoveryStarting = false
  stops : ∀ adapterPath, d.pc = .stops adapterPath → adapterPath ≠ ""

variable {d d' : Discovery}

theorem Sound.client (h : d.Sound) {action : Client.Action} (hok : d.Orderly (.client action))
    (hs : d.step (.client action) = some d') : d'.Sound := by
  simp only [Discovery.step] at hs
  split at hs
  · cases hs
  · rename_i hother
    obtain ⟨client, hclient, rfl⟩ := Option.map_eq_some_iff.mp hs
    have hended (hactive : client.inventory.discoveryActive = false)
      (hstarting : client.inventory.discoveryStarting = false) :
        Sound { d with client, held := d.held && !d.client.disowned action } := by
      refine ⟨fun hon => ?_, fun hon => ?_, fun adapterPath hpc => ⟨(h.filters adapterPath hpc).1,
        hstarting⟩, h.stops⟩
      · exact absurd (hactive.symm.trans hon) Bool.false_ne_true
      · exact absurd (hstarting.symm.trans hon) Bool.false_ne_true
    obtain hsame | hover := step_spared (eq_false_of_ne_true hother) hclient
    · by_cases hlost : d.held = true ∧ d.client.disowned action = true
      · obtain ⟨hactive, hstarting⟩ := step_disowns hlost.2 (hok hlost.1 hlost.2) hclient
        exact hended hactive hstarting
      · have hheld (hold : d.held = true) : (d.held && !d.client.disowned action) = true := by
          have hkept := eq_false_of_ne_true fun hdisowned => hlost ⟨hold, hdisowned⟩
          rw [hold, hkept]
          rfl
        obtain ⟨hactive, hrest⟩ := Prod.mk.inj hsame
        obtain ⟨hstarting, hadapter⟩ := Prod.mk.inj hrest
        refine ⟨fun hon => ?_, fun hon => ?_, fun adapterPath hpc => ?_, h.stops⟩
        · obtain ⟨hold, hsame, hne, hpc⟩ := h.active (hactive.symm.trans hon)
          exact ⟨hheld hold, hadapter.trans hsame, hne, hpc⟩
        · obtain ⟨hsame, hne, hpc⟩ := h.starting (hstarting.symm.trans hon)
          refine ⟨hadapter.trans hsame, hne, hpc.imp_right ?_⟩
          rintro ⟨ok, hpc, hold⟩
          exact ⟨ok, hpc, fun hok => hheld (hold hok)⟩
        · obtain ⟨hne, hstill⟩ := h.filters adapterPath hpc
          exact ⟨hne, hstarting.trans hstill⟩
    · obtain ⟨hactive, hrest⟩ := Prod.mk.inj hover
      exact hended hactive (Prod.mk.inj hrest).1

theorem Sound.reply (h : d.Sound) {ok : Bool} (hs : d.step (.reply ok) = some d') : d'.Sound := by
  simp only [Discovery.step] at hs
  split at hs
  · rename_i adapterPath hpc
    obtain ⟨hne, hstarting⟩ := h.filters adapterPath hpc
    have hinactive (hon : d.client.inventory.discoveryActive = true) : False := by
      have hunowned := (h.active hon).2.2.2
      rw [hpc] at hunowned
      cases hunowned
    cases ok with
    | true =>
      rw [if_pos rfl] at hs
      obtain ⟨client, hclient, rfl⟩ := Option.map_eq_some_iff.mp hs
      obtain rfl := Option.some.inj hclient
      exact ⟨fun hon => (hinactive hon).elim, fun _ => ⟨rfl, hne, .inl rfl⟩, nofun, nofun⟩
    | false =>
      obtain rfl := Option.some.inj hs
      refine ⟨fun hon => (hinactive hon).elim, fun hon => ?_, nofun, nofun⟩
      exact absurd (hstarting.symm.trans hon) Bool.false_ne_true
  · rename_i adapterPath hpc
    obtain rfl := Option.some.inj hs
    refine ⟨fun hon => ?_, fun hon => ?_, nofun, nofun⟩
    · have hunowned := (h.active hon).2.2.2
      rw [hpc] at hunowned
      cases hunowned
    · obtain ⟨hsame, hne, hstarts | ⟨ok', hstarted, -⟩⟩ := h.starting hon
      · obtain rfl := DiscoveryPc.starts.inj (hpc.symm.trans hstarts)
        exact ⟨hsame, hne, .inr ⟨ok, rfl, fun hok => by rw [hok, Bool.or_true]⟩⟩
      · cases hpc.symm.trans hstarted
  · rename_i adapterPath hpc
    obtain rfl := Option.some.inj hs
    have hunstarted (hon : d.client.inventory.discoveryStarting = true) : False := by
      obtain ⟨-, -, hstarts | ⟨ok', hstarted, -⟩⟩ := h.starting hon
      · cases hpc.symm.trans hstarts
      · cases hpc.symm.trans hstarted
    refine ⟨fun hon => ?_, fun hon => (hunstarted hon).elim, fun adapterPath heq => ?_,
      fun adapterPath heq => ?_⟩
    · obtain ⟨hheld, hsame, hne, -⟩ := h.active hon
      exact ⟨hheld, hsame, hne, by cases ok <;> rfl⟩
    · cases ok <;> cases heq
    · cases ok <;> cases heq
  all_goals cases hs

theorem Sound.record (h : d.Sound) (hok : d.Orderly .record) (hs : d.step .record = some d') : d'.Sound := by
  simp only [Discovery.step] at hs
  split at hs
  · rename_i adapterPath ok hpc
    obtain ⟨client, hclient, rfl⟩ := Option.map_eq_some_iff.mp hs
    obtain rfl := Option.some.inj hclient
    cases ok with
    | true =>
      obtain ⟨hsame, hne, hstarts | ⟨ok, hstarted, hheld⟩⟩ := h.starting (hok adapterPath hpc)
      · cases hpc.symm.trans hstarts
      · obtain ⟨-, rfl⟩ := DiscoveryPc.started.inj (hpc.symm.trans hstarted)
        exact ⟨fun _ => ⟨hheld rfl, hsame, hne, rfl⟩, nofun, nofun, nofun⟩
    | false =>
      refine ⟨fun hon => ?_, nofun, nofun, nofun⟩
      have hunowned := (h.active hon).2.2.2
      rw [hpc] at hunowned
      cases hunowned
  · obtain ⟨client, hclient, rfl⟩ := Option.map_eq_some_iff.mp hs
    obtain rfl := Option.some.inj hclient
    exact ⟨nofun, nofun, nofun, nofun⟩
  · cases hs

theorem Sound.step {action : Action} (h : d.Sound) (hok : d.Orderly action) (hs : d.step action = some d') :
    d'.Sound := by
  cases action with
  | startDiscovery adapterPath =>
    simp only [Discovery.step] at hs
    split at hs
    · rename_i hpc
      obtain rfl := Option.some.inj hs
      have hunstarted (hon : d.client.inventory.discoveryStarting = true) : False := by
        obtain ⟨-, -, hstarts | ⟨ok, hstarted, -⟩⟩ := h.starting hon
        · cases hpc.symm.trans hstarts
        · cases hpc.symm.trans hstarted
      split
      · rename_i hstartable
        refine ⟨fun hon => ?_, fun hon => (hunstarted hon).elim, fun path heq => ?_, nofun⟩
        · unfold Inventory.startable at hstartable
          split at hstartable
          · cases hstartable
          · have hinactive := (Bool.and_eq_true_iff.mp hstartable).2
            rw [hon] at hinactive
            cases hinactive
        · obtain rfl := DiscoveryPc.filters.inj heq
          exact ⟨hok, eq_false_of_ne_true hunstarted⟩
      · exact h
    · cases hs
  | stopDiscovery =>
    simp only [Discovery.step] at hs
    split at hs
    · rename_i hpc
      obtain rfl := Option.some.inj hs
      split
      · rename_i hon
        obtain ⟨hheld, hsame, hne, -⟩ := h.active hon
        refine ⟨fun _ => ⟨hheld, hsame, hne, rfl⟩, fun hstarting => ?_, nofun, fun path heq => ?_⟩
        · obtain ⟨-, -, hstarts | ⟨ok, hstarted, -⟩⟩ := h.starting hstarting
          · cases hpc.symm.trans hstarts
          · cases hpc.symm.trans hstarted
        · rw [← DiscoveryPc.stops.inj heq, hsame]
          exact hne
      · exact h
    · cases hs
  | reply ok => exact h.reply hs
  | record => exact h.record hok hs
  | client action => exact h.client hok hs

/-- Discovery is said to be active or starting for the adapter it was begun for, and active while it is held. -/
def Consistent (d : Discovery) : Prop :=
  (d.client.inventory.discoveryActive = true ∨ d.client.inventory.discoveryStarting = true →
      d.client.inventory.discoveryAdapter ≠ "" ∧ d.client.inventory.discoveryAdapter = d.began) ∧
    (d.client.inventory.discoveryActive = true → d.held = true) ∧ ∀ adapterPath,
    d.pc = .stops adapterPath → adapterPath ≠ ""

theorem discovery_consistent (h : ReachesBy step Orderly {} d) : d.Consistent := by
  have hsound : d.Sound := h.invariant ⟨nofun, nofun, nofun, nofun⟩ Sound.step
  refine ⟨fun hon => ?_, fun hon => (hsound.active hon).1, hsound.stops⟩
  obtain hon | hon := hon
  · obtain ⟨-, hsame, hne, -⟩ := hsound.active hon
    exact ⟨hsame ▸ hne, hsame⟩
  · obtain ⟨hsame, hne, -⟩ := hsound.starting hon
    exact ⟨hsame ▸ hne, hsame⟩

/-- A snapshot returns an adapter that is powered. -/
def powered : List Action :=
  (Client.snapshotOf [(.objectPath "/hci0",
    .dictionary "s" "a{sv}" [(.string kAdapter, .dictionary "s" "v" [(.string "Powered",
      .variant (.bool true))])])]).map .client

/-- Discovery is started, and its success recorded. -/
def discovered : List Action := powered ++ [.startDiscovery "/hci0", .reply true, .reply true, .record]

/-- BlueZ loses its owner: up to the section of `onSignal` that has been told. -/
def lost : List Action :=
  [.client (.signal ⟨"NameOwnerChanged", "", [.string kBluez, .string ":1.1", .string ""]⟩),
    .client .callback, .client .callback]

theorem discovery_consistent_once : ∃ d : Discovery, d.client.inventory.discoveryActive = true ∧
    d.client.inventory.discoveryAdapter ≠ "" ∧ d.held = true :=
  have h : ReachesBy step Orderly {} _ := ReachesBy.of_isSome_by discovered (by decide +kernel)
  have hconsistent := discovery_consistent h
  ⟨_, by decide +kernel, (hconsistent.1 (.inl (by decide +kernel))).1, hconsistent.2.1 (by decide +kernel)⟩

/-- The owner is lost between the reply and its record; then discovery is stopped. -/
def overtaken : List Action :=
  powered ++ [.startDiscovery "/hci0", .reply true, .reply true] ++ lost ++ [.record, .stopDiscovery]

/-- The owner is lost while a snapshot is made, which then fails. -/
def unnoticed : List Action :=
  discovered ++ [.client .snapshot] ++ lost ++
    List.replicate 4 (.client (.run (.error ⟨.dbus, "no reply"⟩)))

theorem discovery_stuck :
    (¬ ∀ d : Discovery, ReachesBy step (fun _ => Proper) {} d → ∀ adapterPath,
    d.pc = .stops adapterPath → adapterPath ≠ "") ∧
    ¬ ∀ d : Discovery, ReachesBy step (fun _ => Proper) {} d → d.client.snapshot.running = false →
      d.client.inventory.discoveryActive = true → d.held = true := by
  have hovertaken : ReachesBy step (fun _ => Proper) {} _ := ReachesBy.of_isSome_by overtaken (by
    decide +kernel)
  have hunnoticed : ReachesBy step (fun _ => Proper) {} _ := ReachesBy.of_isSome_by unnoticed (by
    decide +kernel)
  refine ⟨fun h => h _ hovertaken "" (by decide +kernel) rfl, fun h => ?_⟩
  exact absurd (h _ hunnoticed (by decide +kernel) (by decide +kernel)) (by decide +kernel)

end Discovery
end Dmn.Bluez
