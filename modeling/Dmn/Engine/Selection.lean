import Dmn.Engine.Identity
import Mathlib

/-!
# The device selection model

`Dmn_DeviceSelectionModel`: the devices of the latest inventory together with
the saved ones, and the saved and the edited selection.
-/

namespace Dmn.Engine

/-- `Dmn_DeviceEntry` -/
structure DeviceEntry where
  identity : Identity
  displayName : Bytes
  paired : Option Bool := none
  connected : Option Bool := none
  present : Bool := false
  seenDuringDiscovery : Bool := false
  deriving DecidableEq

/-- What `deviceActionAvailability` reads of `Dmn_DeviceActionContext`. -/
structure DeviceActionContext where
  saved : Bool
  selectionDirty : Bool
  monitorRequested : Bool
  monitorStartPending : Bool
  monitorCancelRequested : Bool
  connectionPending : Bool
  closeRequested : Bool

structure DeviceActionAvailability where
  canConnect : Bool
  canDisconnect : Bool
  canStartMonitoring : Bool
  canStopMonitoring : Bool

def deviceActionAvailability (device : DeviceEntry) (context : DeviceActionContext) :
    DeviceActionAvailability :=
  let paired := device.paired.getD false
  let connected := device.connected == some true
  let targetReady := context.saved && device.present && paired
  let connectionActionsAllowed := targetReady && !context.closeRequested
  let monitoringAllowed := targetReady && connected && !context.closeRequested
  let monitoringRequested :=
    context.monitorRequested || (context.monitorStartPending && !context.monitorCancelRequested)
  { canConnect := connectionActionsAllowed && !connected && !context.connectionPending
    canDisconnect := connectionActionsAllowed && (connected || context.connectionPending)
    canStartMonitoring := monitoringAllowed && !context.selectionDirty && !monitoringRequested
    canStopMonitoring := monitoringAllowed && monitoringRequested }

-- ---------------------------------------------------------------------------
-- The order of the devices
-- ---------------------------------------------------------------------------

def compareCaseInsensitive : Bytes → Bytes → Ordering
  | [], [] => .eq
  | [], _ :: _ => .lt
  | _ :: _, [] => .gt
  | left :: lefts, right :: rights =>
    if tolower left ≠ tolower right then if tolower left < tolower right then .lt else .gt
    else compareCaseInsensitive lefts rights

def utf8 (text : String) : Bytes := text.toUTF8.data.toList

def deviceDisplayName (device : DeviceEntry) : Bytes :=
  if device.displayName = [] ∨ compareCaseInsensitive device.displayName device.identity.deviceAddress =
    .eq then
    device.identity.deviceAddress
  else device.displayName

def deviceDisplayStatus (device : DeviceEntry) : Bytes :=
  if device.present then
    (match device.paired with
      | some true => utf8 "Paired"
      | some false => utf8 "Not paired"
      | none => utf8 "Pairing status unavailable") ++
    (match device.connected with
      | some true => utf8 " · Connected"
      | some false => utf8 " · Disconnected"
      | none => utf8 " · Connection status unavailable") ++
    if device.seenDuringDiscovery then utf8 " · Found by scan" else []
  else utf8 "Unavailable"

inductive SortColumn
  | name
  | status
  deriving DecidableEq

/-- `Dmn_DeviceSelectionModel` -/
structure SelectionModel where
  -- The default is the largest `std::size_t`.
  selectionLimit : Nat := 2 ^ 64 - 1
  devices : List DeviceEntry := []
  savedSelection : List Identity := []
  draftSelection : List Identity := []
  sortColumn : SortColumn := .name
  sortAscending : Bool := true

namespace SelectionModel

/-- The comparison of `applySort`. -/
def less (m : SelectionModel) (left right : DeviceEntry) : Bool :=
  let primaryOrder := match m.sortColumn with
    | .name => compareCaseInsensitive (deviceDisplayName left) (deviceDisplayName right)
    | .status => compareCaseInsensitive (deviceDisplayStatus left) (deviceDisplayStatus right)
  let nameOrder := compareCaseInsensitive (deviceDisplayName left) (deviceDisplayName right)
  if primaryOrder ≠ .eq then if m.sortAscending then primaryOrder == .lt else primaryOrder == .gt
  else if nameOrder ≠ .eq then nameOrder == .lt
  else if left.identity.adapterAddress ≠ right.identity.adapterAddress then
    decide (left.identity.adapterAddress < right.identity.adapterAddress)
  else decide (left.identity.deviceAddress < right.identity.deviceAddress)

/-- `std::stable_sort` -/
def applySort (m : SelectionModel) : SelectionModel :=
  { m with devices := m.devices.insertionSort fun left right => m.less right left = false }

def placeholder (identity : Identity) : DeviceEntry := { identity, displayName := identity.deviceAddress }

/-- A saved device that is not there gets an entry. -/
def addSaved (devices : List DeviceEntry) (identity : Identity) : List DeviceEntry :=
  if devices.any (·.identity = identity) then devices else devices ++ [placeholder identity]

def mergeSavedDevices (m : SelectionModel) : SelectionModel :=
  applySort { m with devices := m.savedSelection.foldl addSaved (m.devices.filter (·.present)) }

def replaceInventory (m : SelectionModel) (inventory : List DeviceEntry) : SelectionModel :=
  mergeSavedDevices { m with
    devices := inventory.map fun device => { device with identity := normalizeIdentity device.identity } }

/-- An identity without an address, or one that is there, is left out. -/
def addNormalized (normalized : List Identity) (identity : Identity) : List Identity :=
  let stableIdentity := normalizeIdentity identity
  if stableIdentity.adapterAddress = [] ∨ stableIdentity.deviceAddress = [] then normalized
  else if stableIdentity ∈ normalized then normalized
  else normalized ++ [stableIdentity]

def loadSavedSelection (m : SelectionModel) (selection : List Identity) : SelectionModel :=
  let normalized := (selection.foldl addNormalized []).take m.selectionLimit
  mergeSavedDevices { m with savedSelection := normalized, draftSelection := normalized }

/-- The model, and what is returned. -/
def setDraftSelected (m : SelectionModel) (identity : Identity) (selected : Bool) : SelectionModel × Bool :=
  let stableIdentity := normalizeIdentity identity
  let existing := stableIdentity ∈ m.draftSelection
  if selected = false ∧ existing then ({ m with draftSelection := m.draftSelection.erase stableIdentity }, true)
  else
    let wasSaved := stableIdentity ∈ m.savedSelection
    if ¬wasSaved ∧ m.devices.any (fun entry => entry.identity = stableIdentity && entry.present) =
      false then (m, false)
    else if selected then
      if existing then (m, true)
      else if m.draftSelection.length = m.selectionLimit then (m, false)
      else ({ m with draftSelection := m.draftSelection ++ [stableIdentity] }, true)
    else (m, true)

def saveSelection (m : SelectionModel) : SelectionModel :=
  mergeSavedDevices { m with savedSelection := m.draftSelection }

def discardChanges (m : SelectionModel) : SelectionModel :=
  mergeSavedDevices { m with draftSelection := m.savedSelection }

def sortDevices (m : SelectionModel) (column : SortColumn) (ascending : Bool) : SelectionModel :=
  applySort { m with sortColumn := column, sortAscending := ascending }

def hasUnsavedChanges (m : SelectionModel) : Bool := m.savedSelection ≠ m.draftSelection

-- ---------------------------------------------------------------------------
-- Identities
-- ---------------------------------------------------------------------------

/-- Every identity is in upper case. -/
structure Wellformed (m : SelectionModel) : Prop where
  devices : ∀ device ∈ m.devices, device.identity.Normal
  saved : ∀ identity ∈ m.savedSelection, identity.Normal
  draft : ∀ identity ∈ m.draftSelection, identity.Normal

/-- No two devices have the same identity. -/
def Distinct (devices : List DeviceEntry) : Prop :=
    (devices.map fun device => identityKey device.identity).Nodup

theorem devices_applySort (m : SelectionModel) : m.applySort.devices.Perm m.devices :=
    List.perm_insertionSort _ _

theorem mem_foldl_addSaved {saved : List Identity} {devices : List DeviceEntry} {device : DeviceEntry}
    (h : device ∈ saved.foldl addSaved devices) : device ∈ devices ∨ ∃ identity ∈ saved,
    device = placeholder identity := by
  induction saved generalizing devices with
  | nil => exact .inl h
  | cons identity saved ih =>
    obtain hold | ⟨other, hother, rfl⟩ := ih h
    · unfold addSaved at hold
      split at hold
      · exact .inl hold
      · obtain hold | hnew := List.mem_append.mp hold
        · exact .inl hold
        · exact .inr ⟨identity, List.mem_cons_self, List.mem_singleton.mp hnew⟩
    · exact .inr ⟨other, List.mem_cons_of_mem _ hother, rfl⟩

theorem mem_mergeSavedDevices {m : SelectionModel} {device : DeviceEntry}
    (h : device ∈ m.mergeSavedDevices.devices) :
    device ∈ m.devices ∧ device.present ∨ ∃ identity ∈ m.savedSelection, device = placeholder identity := by
  have hmem := (devices_applySort _).mem_iff.mp h
  obtain hold | hnew := mem_foldl_addSaved hmem
  · exact .inl (List.mem_filter.mp hold)
  · exact .inr hnew

/-- Normal identities that are distinct stay so when a saved one is added. -/
theorem distinct_addSaved {devices : List DeviceEntry} {identity : Identity} (hdistinct : Distinct devices)
    (hnormal : ∀ device ∈ devices, device.identity.Normal) (hidentity : identity.Normal) :
    Distinct (addSaved devices identity) := by
  unfold addSaved
  split
  · exact hdistinct
  · rename_i hnone
    unfold Distinct at hdistinct ⊢
    rw [List.map_append, List.map_singleton]
    refine hdistinct.append (List.nodup_singleton _) fun key hkey hnew => hnone ?_
    obtain ⟨device, hdevice, rfl⟩ := List.mem_map.mp hkey
    rw [List.any_eq_true]
    refine ⟨device, hdevice, decide_eq_true ?_⟩
    exact ((hnormal device hdevice).eq_iff hidentity).mpr (List.mem_singleton.mp hnew)

theorem distinct_foldl_addSaved {saved : List Identity} {devices : List DeviceEntry}
    (hdistinct : Distinct devices)
    (hnormal : ∀ device ∈ devices, device.identity.Normal) (hsaved : ∀ identity ∈ saved, identity.Normal) :
    Distinct (saved.foldl addSaved devices) := by
  induction saved generalizing devices with
  | nil => exact hdistinct
  | cons identity saved ih =>
    have hidentity := hsaved identity List.mem_cons_self
    refine ih (distinct_addSaved hdistinct hnormal hidentity) (fun device hdevice => ?_)
      fun other hother => hsaved other (List.mem_cons_of_mem _ hother)
    have hdevice : device ∈ [identity].foldl addSaved devices := hdevice
    obtain hold | ⟨other, hother, rfl⟩ := mem_foldl_addSaved hdevice
    · exact hnormal device hold
    · exact List.mem_singleton.mp hother ▸ hidentity

theorem distinct_mergeSavedDevices {m : SelectionModel} (hdistinct : Distinct m.devices)
    (hnormal : ∀ device ∈ m.devices, device.identity.Normal) (hsaved : ∀ identity ∈ m.savedSelection,
    identity.Normal) :
    Distinct m.mergeSavedDevices.devices := by
  have hfilter : Distinct (m.devices.filter (·.present)) := hdistinct.sublist (List.filter_sublist.map _)
  have hfold := distinct_foldl_addSaved hfilter (fun device hdevice => hnormal device
    (List.mem_filter.mp hdevice).1) hsaved
  exact ((devices_applySort _).map _).nodup_iff.mpr hfold

theorem normal_addNormalized {selection normalized : List Identity}
    (h : ∀ identity ∈ normalized, identity.Normal) :
    ∀ identity ∈ selection.foldl addNormalized normalized, identity.Normal := by
  induction selection generalizing normalized with
  | nil => exact h
  | cons first selection ih =>
    refine ih fun identity hidentity => ?_
    unfold addNormalized at hidentity
    dsimp only at hidentity
    split at hidentity
    · exact h identity hidentity
    · split at hidentity
      · exact h identity hidentity
      · obtain hold | hnew := List.mem_append.mp hidentity
        · exact h identity hold
        · exact List.mem_singleton.mp hnew ▸ normalizeIdentity_normal first

variable {m : SelectionModel}

theorem Wellformed.merge (h : m.Wellformed) : m.mergeSavedDevices.Wellformed where
  devices device hdevice := by
    obtain ⟨hold, -⟩ | ⟨identity, hidentity, rfl⟩ := mem_mergeSavedDevices hdevice
    · exact h.devices device hold
    · exact h.saved identity hidentity
  saved := h.saved
  draft := h.draft

theorem Wellformed.replaceInventory (h : m.Wellformed) (inventory : List DeviceEntry) :
    (m.replaceInventory inventory).Wellformed := by
  refine Wellformed.merge ⟨fun device hdevice => ?_, h.saved, h.draft⟩
  obtain ⟨entry, -, rfl⟩ := List.mem_map.mp hdevice
  exact normalizeIdentity_normal entry.identity

theorem Wellformed.loadSavedSelection (h : m.Wellformed) (selection : List Identity) :
    (m.loadSavedSelection selection).Wellformed := by
  have hnormal : ∀ identity ∈ (selection.foldl addNormalized []).take m.selectionLimit, identity.Normal :=
    fun identity hidentity => normal_addNormalized (fun _ hnone => absurd hnone List.not_mem_nil)
      identity (List.mem_of_mem_take hidentity)
  exact Wellformed.merge ⟨h.devices, hnormal, hnormal⟩

theorem Wellformed.setDraftSelected (h : m.Wellformed) (identity : Identity) (selected : Bool) :
    (m.setDraftSelected identity selected).1.Wellformed := by
  unfold SelectionModel.setDraftSelected
  dsimp only
  split
  · exact ⟨h.devices, h.saved, fun other hother => h.draft other (List.mem_of_mem_erase hother)⟩
  · split
    · exact h
    · split
      · split
        · exact h
        · split
          · exact h
          · refine ⟨h.devices, h.saved, fun other hother => ?_⟩
            obtain hold | hnew := List.mem_append.mp hother
            · exact h.draft other hold
            · exact List.mem_singleton.mp hnew ▸ normalizeIdentity_normal identity
      · exact h

theorem Wellformed.saveSelection (h : m.Wellformed) : m.saveSelection.Wellformed :=
  Wellformed.merge ⟨h.devices, h.draft, h.draft⟩

theorem Wellformed.discardChanges (h : m.Wellformed) : m.discardChanges.Wellformed :=
  Wellformed.merge ⟨h.devices, h.saved, h.saved⟩

theorem Wellformed.sortDevices (h : m.Wellformed) (column : SortColumn) (ascending : Bool) :
    (m.sortDevices column ascending).Wellformed :=
  ⟨fun device hdevice => h.devices device
    ((devices_applySort { m with sortColumn := column, sortAscending := ascending }).mem_iff.mp hdevice),
    h.saved, h.draft⟩

theorem setDraftSelected_same (m : SelectionModel) (identity : Identity) (selected : Bool) :
    (m.setDraftSelected identity selected).1.devices = m.devices ∧
      (m.setDraftSelected identity selected).1.savedSelection = m.savedSelection := by
  unfold setDraftSelected
  dsimp only
  split
  · exact ⟨rfl, rfl⟩
  · split
    · exact ⟨rfl, rfl⟩
    · split
      · split
        · exact ⟨rfl, rfl⟩
        · split <;> exact ⟨rfl, rfl⟩
      · exact ⟨rfl, rfl⟩

theorem distinct_replaceInventory {inventory : List DeviceEntry} (h : m.Wellformed)
    (hdistinct : Distinct inventory) :
    Distinct (m.replaceInventory inventory).devices := by
  refine distinct_mergeSavedDevices ?_ (fun device hdevice => ?_) h.saved
  · unfold Distinct
    rw [List.map_map]
    have hkeys : ((fun device : DeviceEntry => identityKey device.identity) ∘
        fun device : DeviceEntry => { device with identity := normalizeIdentity device.identity }) =
          fun device : DeviceEntry => identityKey device.identity :=
      funext fun device => identityKey_normalizeIdentity device.identity
    rw [hkeys]
    exact hdistinct
  · obtain ⟨entry, -, rfl⟩ := List.mem_map.mp hdevice
    exact normalizeIdentity_normal entry.identity

end SelectionModel
end Dmn.Engine
