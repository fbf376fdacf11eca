import Dmn.Bluez.Machine

/-!
# The index by object path

`m_device_paths` and `m_devices` are inverse to each other in every state that
the client reaches.
-/

namespace Dmn.Bluez

open Dmn.Lib

namespace Inventory

variable {i : Inventory} {device : Device} {path : String} {identity : DeviceIdentity}

/-- `m_device_paths` and `m_devices` are inverse to each other. -/
structure Inverse (i : Inventory) : Prop where
  path : ∀ path identity, i.devicePaths path = some identity →
    ∃ device, i.devices identity = some device ∧ device.objectPath = path
  key : ∀ identity device, i.devices identity = some device → i.devicePaths device.objectPath = some identity

/-- But for one path, which may lead to nothing. -/
structure InverseBut (i : Inventory) (dangling : String) : Prop where
  sound : ∀ path identity device, i.devicePaths path = some identity → i.devices identity = some device →
    device.objectPath = path
  stored : ∀ path identity, i.devicePaths path = some identity → path ≠ dangling → i.devices identity ≠ none
  key : ∀ identity device, i.devices identity = some device → i.devicePaths device.objectPath = some identity

theorem Inverse.but (h : i.Inverse) (dangling : String) : i.InverseBut dangling where
  sound path identity device hpath hdevice := by
    obtain ⟨other, hother, rfl⟩ := h.path path identity hpath
    rw [hdevice] at hother
    rw [Option.some.inj hother]
  stored path identity hpath _ := by
    obtain ⟨other, hother, -⟩ := h.path path identity hpath
    rw [hother]
    exact nofun
  key := h.key

/-- What `storeDevice` puts into the map. -/
def storedDevice (i : Inventory) (device : Device) : Device :=
  match i.devices (i.deviceIdentity device) with
  | none => device
  | some existing =>
    { device with seenDuringDiscovery := device.seenDuringDiscovery || existing.seenDuringDiscovery }

@[simp] theorem storedDevice_objectPath (i : Inventory) (device : Device) :
    (i.storedDevice device).objectPath = device.objectPath := by
  unfold storedDevice
  split <;> rfl

/-- The path of the record that the new one replaces is forgotten. -/
theorem setPath_devicePaths (i : Inventory) (path other : String) (identity : Option DeviceIdentity) :
    (i.setPath path identity).devicePaths other = if other = path then identity else i.devicePaths other :=
  Function.update_apply ..

theorem setDevice_devices (i : Inventory) (identity other : DeviceIdentity) (device : Option Device) :
    (i.setDevice identity device).devices other = if other = identity then device else i.devices other :=
  Function.update_apply ..

/-- The second step of `storeDevice`: the record that had the path is removed, unless it is the one
that is replaced. -/
def cleared (i : Inventory) (identity : DeviceIdentity) (prior : Option DeviceIdentity) : Inventory :=
  match prior with
  | none => i
  | some prior => if prior ≠ identity then i.setDevice prior none else i

/-- It touches what `setDevice` touches. -/
theorem cleared_frame {α : Type*} {f : Inventory → α} (h : ∀ i prior, f (setDevice i prior none) = f i)
    (i : Inventory)
    (identity : DeviceIdentity) (prior : Option DeviceIdentity) : f (i.cleared identity prior) = f i := by
  cases prior with
  | none => rfl
  | some prior =>
    rw [cleared]
    split
    · exact h i prior
    · rfl

/-- `storeDevice`, map by map. -/
theorem storeDevice_devices (i : Inventory) (device : Device) (identity : DeviceIdentity) :
    (i.storeDevice device).1.devices identity =
      if identity = i.deviceIdentity device then some (i.storedDevice device)
      else if i.devicePaths device.objectPath = some identity then none else i.devices identity := by
  have hcleared : ∀ j : Inventory, j.devices = i.devices →
      j.devicePaths device.objectPath = i.devicePaths device.objectPath → identity ≠ i.deviceIdentity device →
        (j.cleared (i.deviceIdentity device) (j.devicePaths device.objectPath)).devices identity =
          if i.devicePaths device.objectPath = some identity then none else i.devices identity := by
    intro j hdevices hpath hne
    rw [hpath]
    cases i.devicePaths device.objectPath with
    | none => rw [cleared, if_neg (by rintro ⟨⟩), hdevices]
    | some prior =>
      by_cases hprior : prior = identity
      · subst hprior
        rw [cleared, if_pos rfl]
        simp only [if_pos hne, setDevice_devices, if_true]
      · rw [cleared, if_neg fun heq => hprior (Option.some.inj heq)]
        split
        · rw [setDevice_devices, if_neg (Ne.symm hprior), hdevices]
        · rw [hdevices]
  unfold storeDevice storedDevice
  dsimp only
  rw [setDevice_devices]
  cases hexisting : i.devices (i.deviceIdentity device) with
  | none =>
    split
    · rfl
    · rename_i hne
      exact hcleared i rfl rfl hne
  | some existing =>
    split
    · rfl
    · rename_i hne
      refine hcleared _ ?_ ?_ hne
      · dsimp only
        split <;> rfl
      · dsimp only
        split
        · rename_i hpath
          rw [setPath_devicePaths, if_neg (Ne.symm hpath)]
        · rfl

theorem storeDevice_devicePaths (i : Inventory) (device : Device) (path : String) :
    (i.storeDevice device).1.devicePaths path =
      if path = device.objectPath then some (i.deviceIdentity device)
      else if (i.devices (i.deviceIdentity device)).any (·.objectPath = path) then none else
        i.devicePaths path := by
  have hcleared (j : Inventory) (prior : Option DeviceIdentity) :
      (j.cleared (i.deviceIdentity device) prior).devicePaths path = j.devicePaths path :=
    cleared_frame (f := fun j => j.devicePaths path) (fun _ _ => rfl) j _ prior
  unfold storeDevice
  dsimp only
  show (setPath _ _ _).devicePaths path = _
  rw [setPath_devicePaths]
  cases hexisting : i.devices (i.deviceIdentity device) with
  | none =>
    dsimp only
    split
    · rfl
    · exact hcleared i _
  | some existing =>
    dsimp only
    split
    · rfl
    · rename_i hne
      refine (hcleared _ _).trans ?_
      simp only [Option.any_some, decide_eq_true_eq]
      by_cases hpath : existing.objectPath = device.objectPath
      · rw [if_neg (not_not.mpr hpath), if_neg fun heq => hne (heq.symm.trans hpath)]
      · rw [if_pos hpath, setPath_devicePaths]
        by_cases hsame : path = existing.objectPath
        · rw [if_pos hsame, if_pos hsame.symm]
        · rw [if_neg hsame, if_neg (Ne.symm hsame)]

/-- The new record is stored, and nothing that was found before is missed, but for the record it replaces. -/
theorem InverseBut.storeDevice (h : i.InverseBut device.objectPath) : (i.storeDevice device).1.Inverse where
  path path identity hpath := by
    rw [storeDevice_devicePaths] at hpath
    split at hpath
    · rename_i hsame
      obtain rfl := Option.some.inj hpath
      exact ⟨i.storedDevice device, by rw [storeDevice_devices, if_pos rfl], by
        rw [storedDevice_objectPath, hsame]⟩
    · rename_i hother
      split at hpath
      · cases hpath
      · rename_i hkept
        obtain ⟨found, hfound⟩ := Option.ne_none_iff_exists'.mp (h.stored path identity hpath hother)
        have hsound := h.sound path identity found hpath hfound
        refine ⟨found, ?_, hsound⟩
        rw [storeDevice_devices, if_neg, if_neg, hfound]
        · exact fun hprior => hother (hsound.symm.trans (h.sound _ _ _ hprior hfound))
        · rintro rfl
          exact hkept (by rw [hfound]; exact decide_eq_true hsound)
  key identity found hfound := by
    rw [storeDevice_devices] at hfound
    rw [storeDevice_devicePaths]
    split at hfound
    · rename_i hsame
      obtain rfl := Option.some.inj hfound
      rw [storedDevice_objectPath, if_pos rfl, hsame]
    · rename_i hother
      split at hfound
      · cases hfound
      · rename_i hkept
        have hpath := h.key identity found hfound
        rw [if_neg, if_neg, hpath]
        · intro hexisting
          obtain ⟨existing, hexisting, hsame⟩ := (Option.any_eq_true _ _).mp hexisting
          have hold := h.key _ existing hexisting
          rw [of_decide_eq_true hsame, hpath] at hold
          exact hother (Option.some.inj hold)
        · intro hsame
          rw [hsame] at hpath
          exact hkept hpath

theorem Inverse.storeDevice (h : i.Inverse) (device : Device) : (i.storeDevice device).1.Inverse :=
  (h.but device.objectPath).storeDevice

theorem Inverse.clear (i : Inventory) : i.clear.Inverse where
  path _ _ hpath := by cases hpath
  key _ _ hdevice := by cases hdevice

/-- The maps of devices are the same. -/
theorem Inverse.congr {j : Inventory} (h : i.Inverse) (hdevices : j.devices = i.devices)
    (hpaths : j.devicePaths = i.devicePaths) : j.Inverse where
  path := by
    rw [hdevices, hpaths]
    exact h.path
  key := by
    rw [hdevices, hpaths]
    exact h.key

/-- A record is replaced by one of the same object. -/
theorem Inverse.setDevice (h : i.Inverse) (hold : i.devicePaths device.objectPath = some identity) :
    (i.setDevice identity (some device)).Inverse where
  path path other hpath := by
    rw [setDevice_devices]
    split
    · rename_i hsame
      subst hsame
      obtain ⟨found, hfound, hfoundPath⟩ := h.path _ _ hpath
      obtain ⟨old, hold, holdPath⟩ := h.path _ _ hold
      rw [hfound] at hold
      obtain rfl := Option.some.inj hold
      exact ⟨device, rfl, holdPath.symm.trans hfoundPath⟩
    · exact h.path path other hpath
  key other found hfound := by
    rw [setDevice_devices] at hfound
    split at hfound
    · rename_i hsame
      obtain rfl := Option.some.inj hfound
      exact hsame ▸ hold
    · exact h.key other found hfound

/-- A record and its path are removed. -/
theorem Inverse.remove (h : i.Inverse) (hpath : i.devicePaths path = some identity) :
    ((i.setDevice identity none).setPath path none).Inverse where
  path other found hother := by
    rw [setPath_devicePaths] at hother
    split at hother
    · cases hother
    · rename_i hne
      obtain ⟨device, hdevice, hdevicePath⟩ := h.path other found hother
      refine ⟨device, ?_, hdevicePath⟩
      show (i.setDevice identity none).devices found = some device
      rw [setDevice_devices, if_neg, hdevice]
      rintro rfl
      obtain ⟨old, hold, holdPath⟩ := h.path path _ hpath
      rw [hdevice] at hold
      exact hne (hdevicePath.symm.trans (Option.some.inj hold ▸ holdPath))
  key found device hdevice := by
    have hdevice' : (i.setDevice identity none).devices found = some device := hdevice
    rw [setDevice_devices] at hdevice'
    split at hdevice'
    · cases hdevice'
    · rename_i hne
      have hold := h.key found device hdevice'
      rw [setPath_devicePaths, if_neg]
      · exact hold
      · rintro rfl
        exact hne (Option.some.inj (hold.symm.trans hpath))

/-- The record of a path that leads to it gets a new key. -/
theorem Inverse.rekey (h : i.Inverse) (hpath : i.devicePaths device.objectPath = some identity) :
    (rekey identity device i).Inverse := by
  unfold Bluez.rekey
  dsimp only
  have hset := h.setDevice hpath
  split
  · exact hset
  · refine InverseBut.storeDevice ⟨fun path other found hother hfound => ?_, fun path other hother hne => ?_,
      fun other found hfound => ?_⟩
    · rw [setDevice_devices] at hfound
      split at hfound
      · cases hfound
      · exact (hset.but path).sound path other found hother hfound
    · rw [setDevice_devices, if_neg]
      · exact (hset.but device.objectPath).stored path other hother hne
      · rintro rfl
        obtain ⟨found, hfound, hfoundPath⟩ := hset.path path other hother
        rw [setDevice_devices, if_pos rfl] at hfound
        exact hne (hfoundPath.symm.trans (Option.some.inj hfound ▸ rfl))
    · rw [setDevice_devices] at hfound
      split at hfound
      · cases hfound
      · exact hset.key other found hfound

end Inventory

-- ---------------------------------------------------------------------------
-- Signals
-- ---------------------------------------------------------------------------

theorem final_alter_bind {α : Type} (f : Inventory → Inventory) (g : PUnit → Applying α) (a : Applied) :
    final (alter f >>= g) a = final (g ⟨⟩) { a with inventory := f a.inventory } := rfl

theorem final_push_bind {α : Type} (event : Event) (g : PUnit → Applying α) (a : Applied) :
    final (push event >>= g) a = final (g ⟨⟩) { a with events := a.events ++ [event] } := rfl

/-- The maps of the inventory are inverse to each other. -/
def Indexed (a : Applied) : Prop := a.inventory.Inverse

theorem keeps_pure : Keeps Indexed (pure () : Applying Unit) := fun _ h => h

theorem keeps_push (event : Event) : Keeps Indexed (push event) := fun _ h => h

theorem keeps_alter {f : Inventory → Inventory} (hf : ∀ i, i.Inverse → (f i).Inverse) :
    Keeps Indexed (alter f) :=
  fun a h => hf a.inventory h

theorem nameOwnerChanged_keeps (name oldOwner newOwner : Value) :
    Keeps Indexed (nameOwnerChanged name oldOwner newOwner) := by
  have hrecovery : ∀ newOwner : String, Keeps Indexed
      (if newOwner ≠ "" then alter fun i => { i with recoveryRequested := true } else pure ()) := by
    intro newOwner
    split
    · exact keeps_alter fun i h => h.congr rfl rfl
    · exact keeps_pure
  unfold nameOwnerChanged
  refine .reads fun name => ?_
  split
  · refine .reads fun oldOwner => .reads fun newOwner => ?_
    dsimp only
    split
    · exact .bind (keeps_alter fun i _ => (Inventory.Inverse.clear i).congr rfl rfl) fun _ =>
        .bind (keeps_push _) fun _ => hrecovery newOwner
    · exact hrecovery newOwner
  · exact keeps_pure

theorem addAdapter_keeps (path : String) (properties : Value) : Keeps Indexed (addAdapter path properties) := by
  unfold addAdapter
  exact .reads fun adapter => .bind (keeps_alter fun i h => h.congr rfl rfl) fun _ => keeps_push _

theorem addDevice_keeps (path : String) (properties : Value) : Keeps Indexed (addDevice path properties) := by
  unfold addDevice
  refine .reads fun parsed => fun a h => ?_
  rw [final_get_bind]
  dsimp only
  refine Keeps.bind (I := Indexed) (fun b _ => ?_) (fun _ => ?_) a h
  · exact Inventory.Inverse.storeDevice h _
  · split
    · exact keeps_push _
    · exact keeps_pure

/-- The second half of `interfacesAdded`. -/
def interfacesAddedDevice (path : String) (interfaces : Value) : Applying Unit := do
  match ← reads (findInterface interfaces kDevice) with
  | some properties => addDevice path properties
  | none => pure ()

theorem interfacesAdded_keeps (path interfaces : Value) : Keeps Indexed (interfacesAdded path interfaces) := by
  have hdevice (path : String) : Keeps Indexed (interfacesAddedDevice path interfaces) := by
    refine .reads fun device => ?_
    split
    · exact addDevice_keeps _ _
    · exact keeps_pure
  unfold interfacesAdded
  refine .reads fun path => .reads fun adapter => ?_
  dsimp only
  split
  · exact .bind (addAdapter_keeps _ _) fun _ => hdevice path
  · exact hdevice path

theorem removeAdapter_keeps (path : String) : Keeps Indexed (removeAdapter path) := by
  unfold removeAdapter
  intro a h
  rw [final_get_bind]
  split
  · exact h
  · refine Keeps.bind (keeps_push _) (fun _ => ?_) a h
    exact keeps_alter fun i h => h.congr rfl rfl

theorem removeDevice_keeps (path : String) : Keeps Indexed (removeDevice path) := by
  unfold removeDevice
  intro a h
  rw [final_get_bind]
  dsimp only
  split
  · exact h
  · rename_i identity hpath
    obtain ⟨device, hdevice, -⟩ := Inventory.Inverse.path h path identity hpath
    rw [hdevice]
    exact Inventory.Inverse.remove h hpath

theorem removeInterfaces_keeps (path : String) (interfaces : List Value) :
    Keeps Indexed (removeInterfaces path interfaces) := by
  induction interfaces with
  | nil => exact keeps_pure
  | cons interface interfaces ih =>
    unfold removeInterfaces
    refine .reads fun interface => ?_
    dsimp only
    split
    · exact .bind (removeAdapter_keeps path) fun _ => ih
    · split
      · exact .bind (removeDevice_keeps path) fun _ => ih
      · exact ih

theorem changeAdapter_keeps (path : String) (changed : Value) (invalidated : List Value) :
    Keeps Indexed (changeAdapter path changed invalidated) := by
  have hset : ∀ adapter : Adapter, Keeps Indexed
      (alter fun i => { i with adapters := Function.update i.adapters path (some adapter) }) :=
    fun adapter => keeps_alter fun i h => h.congr rfl rfl
  unfold changeAdapter
  intro a h
  rw [final_get_bind]
  split
  · exact h
  · split
    · exact Keeps.bind (hset _) (fun _ => .throw _) a h
    · exact Keeps.bind (hset _) (fun _ => keeps_push _) a h

/-- Whatever is read: the object path stays. -/
theorem updateDevice_objectPath (changed : Value) (invalidated : List Value) (device : Device) :
    (final (updateDevice changed invalidated) device).objectPath = device.objectPath := by
  let I (d : Device) : Prop := d.objectPath = device.objectPath
  have hmodify : ∀ {f : Device → Device}, (∀ d, (f d).objectPath = d.objectPath) →
      Keeps I (modify f : EStateM String Device PUnit) := fun hf => .modify fun d hd => (hf d).trans hd
  have hupdate : Keeps I (updateDevice changed invalidated) := by
    unfold updateDevice
    exact .get fun _ => .reads fun _ => .bind (hmodify fun _ => rfl) fun _ =>
      .get fun _ => .reads fun _ => .bind (hmodify fun _ => rfl) fun _ =>
      .get fun _ => .reads fun _ => .bind (hmodify fun _ => rfl) fun _ =>
      .get fun _ => .reads fun _ => .bind (hmodify fun _ => rfl) fun _ =>
      .get fun _ => .reads fun _ => .bind (hmodify fun _ => rfl) fun _ =>
      .get fun _ => .reads fun _ => .bind (hmodify fun _ => rfl) fun _ =>
      .get fun _ => .reads fun _ => .bind (hmodify fun _ => rfl) fun _ => hmodify fun _ => rfl
  exact hupdate device rfl

theorem changeDevice_keeps (path : String) (changed : Value) (invalidated : List Value) :
    Keeps Indexed (changeDevice path changed invalidated) := by
  unfold changeDevice
  intro a h
  rw [final_get_bind]
  dsimp only
  split
  · exact h
  · rename_i identity hpath
    obtain ⟨device, hdevice, rfl⟩ := Inventory.Inverse.path h path identity hpath
    rw [hdevice]
    have hobject := updateDevice_objectPath changed invalidated device
    dsimp only
    unfold final at hobject
    split
    · rename_i error updated hupdate
      rw [hupdate] at hobject
      rw [final_alter_bind]
      exact Inventory.Inverse.setDevice h (hobject ▸ hpath)
    · rename_i updated hupdate
      rw [hupdate] at hobject
      have hrekey : (rekey identity updated a.inventory).Inverse := Inventory.Inverse.rekey h (hobject ▸ hpath)
      rw [final_alter_bind, final_get_bind]
      dsimp only
      split
      · exact hrekey
      · rename_i identity' hpath'
        obtain ⟨stored, hstored, hstoredPath⟩ := hrekey.path _ identity' hpath'
        rw [hstored]
        have hdone : ∀ seen, ((rekey identity updated a.inventory).setDevice identity'
            (some { stored with seenDuringDiscovery := seen })).Inverse := fun seen =>
          hrekey.setDevice (hstoredPath ▸ hpath')
        dsimp only
        split
        · exact final_reads_bind hrekey fun rssi _ => hdone _
        · exact hdone _

theorem applyMember_keeps (signal : Signal) : Keeps Indexed (applyMember signal) := by
  unfold applyMember
  split
  · split
    · exact nameOwnerChanged_keeps _ _ _
    · split
      · unfold propertiesChanged
        refine .reads fun interface => .reads fun invalidated => ?_
        split
        · exact changeAdapter_keeps _ _ _
        · split
          · exact changeDevice_keeps _ _ _
          · exact keeps_pure
      · exact keeps_pure
  · split
    · exact interfacesAdded_keeps _ _
    · split
      · unfold interfacesRemoved
        exact .reads fun path => .reads fun interfaces => removeInterfaces_keeps path interfaces
      · exact keeps_pure
  · exact keeps_pure

theorem applySignal_inventory (signal : Signal) (a : Applied) :
    (applySignal signal a).inventory = (final (applyMember signal) a).inventory := by
  unfold applySignal final
  cases applyMember signal a <;> rfl

theorem Inventory.Inverse.applySignal {i : Inventory} {events : List Event} (h : i.Inverse) (signal : Signal) :
    (Bluez.applySignal signal ⟨i, events⟩).inventory.Inverse := by
  rw [applySignal_inventory]
  exact applyMember_keeps signal ⟨i, events⟩ h

-- ---------------------------------------------------------------------------
-- Objects
-- ---------------------------------------------------------------------------

theorem loadAdapters_keeps (objects : List (Value × Value)) : Keeps Inventory.Inverse
    (loadAdapters objects) := by
  induction objects with
  | nil => exact .pure _
  | cons object objects ih =>
    unfold loadAdapters
    refine .reads fun path => .reads fun properties => ?_
    dsimp only
    split
    · exact .reads fun adapter => .bind (.modify fun i h => h.congr rfl rfl) fun _ => ih
    · exact ih

theorem loadDevices_keeps (previousDevices : DeviceIdentity → Option Device) (objects : List (Value × Value)) :
    Keeps Inventory.Inverse (loadDevices previousDevices objects) := by
  induction objects with
  | nil => exact .pure _
  | cons object objects ih =>
    unfold loadDevices
    refine .reads fun path => .reads fun properties => ?_
    dsimp only
    split
    · exact .reads fun parsed => .bind (.modify fun i h => h.storeDevice _) fun _ => ih
    · exact ih

theorem replay_keeps (signals : List Signal) : Keeps Inventory.Inverse (replay signals) := by
  induction signals with
  | nil => exact .pure _
  | cons signal signals ih =>
    unfold replay
    exact .reads fun lost => .bind (.modify fun i h => h.applySignal signal) fun _ => .bind ih fun _ => .pure _

theorem load_keeps (objects : Value) (previousDevices : DeviceIdentity → Option Device) :
    Keeps Inventory.Inverse (load objects previousDevices) :=
  .bind (.modify fun i _ => (Inventory.Inverse.clear i).congr rfl rfl) fun _ => .reads fun objects =>
    .bind (loadAdapters_keeps objects) fun _ => loadDevices_keeps previousDevices objects

theorem reload_keeps (objects : Value) (staged : List Signal) : Keeps Inventory.Inverse
    (reload objects staged) :=
  .get fun _ => .bind (load_keeps objects _) fun _ => replay_keeps staged

-- ---------------------------------------------------------------------------
-- Runs
-- ---------------------------------------------------------------------------

namespace Client

variable {c c' : Client}

theorem failSnapshot_inverse (c : Client) : c.failSnapshot.inventory.Inverse :=
    Inventory.Inverse.clear c.inventory

theorem finish_inverse (h : c.inventory.Inverse) (droppedBefore droppedAfter : Nat) (objects : Value) :
    (c.finish droppedBefore droppedAfter objects).1.inventory.Inverse := by
  unfold finish
  split
  · exact failSnapshot_inverse c
  · split
    · exact failSnapshot_inverse c
    · have hreload := reload_keeps objects c.stagedSignals c.inventory h
      unfold final at hreload
      split
      · exact .clear _
      · rename_i ownerLost inventory heq
        rw [heq] at hreload
        split
        · exact .clear _
        · exact hreload.congr rfl rfl

theorem process_inverse (h : c.inventory.Inverse) (signal : Signal) (droppedSignals : Nat) :
    (c.process signal droppedSignals).1.inventory.Inverse := by
  unfold process
  split
  · dsimp only
    split <;> exact .clear c.inventory
  · split
    · split
      · exact .clear c.inventory
      · exact h
    · exact h.applySignal signal

theorem runEmit_inverse (h : c.inventory.Inverse) (pc : EmitPc) : (c.runEmit pc).1.inventory.Inverse := by
  unfold runEmit
  split
  · split <;> exact h
  · exact .clear c.inventory
  · exact h.congr rfl rfl

theorem runSnapshot_inverse {result : Except Error (List Value)} (h : c.inventory.Inverse)
    (hs : c.runSnapshot result = some c') : c'.inventory.Inverse := by
  unfold runSnapshot at hs
  split at hs
  · cases hs
  · obtain rfl := Option.some.inj hs
    exact h
  · obtain rfl := Option.some.inj hs
    exact h
  · obtain rfl := Option.some.inj hs
    exact h
  · split at hs
    · cases hs
    · obtain rfl := Option.some.inj hs
      exact failSnapshot_inverse c
  · split at hs
    · cases hs
    · obtain rfl := Option.some.inj hs
      exact h
  · obtain rfl := Option.some.inj hs
    exact h
  · obtain rfl := Option.some.inj hs
    exact finish_inverse h _ _ _

theorem runCallback_inverse (h : c.inventory.Inverse) (hs : c.runCallback = some c') :
    c'.inventory.Inverse := by
  unfold runCallback at hs
  split at hs
  · cases hs
  · obtain rfl := Option.some.inj hs
    exact h
  · split at hs
    · cases hs
    · obtain rfl := Option.some.inj hs
      exact process_inverse h _ _
  · obtain rfl := Option.some.inj hs
    exact h.congr rfl rfl
  · obtain rfl := Option.some.inj hs
    exact runEmit_inverse h _

theorem runRecovery_inverse (h : c.inventory.Inverse) (hs : c.runRecovery = some c') :
    c'.inventory.Inverse := by
  unfold runRecovery at hs
  split at hs
  · split at hs
    · obtain rfl := Option.some.inj hs
      exact h.congr rfl rfl
    · cases hs
  · split at hs
    · obtain rfl := Option.some.inj hs
      exact h
    · cases hs
  · cases hs
  · obtain rfl := Option.some.inj hs
    exact runEmit_inverse h _

theorem unsee_inverse {i : Inventory} (h : i.Inverse) (adapterPath : String) :
    (i.unsee adapterPath).Inverse where
  path path identity hpath := by
    obtain ⟨device, hdevice, hobject⟩ := h.path path identity hpath
    refine ⟨_, Option.map_eq_some_iff.mpr ⟨device, hdevice, rfl⟩, ?_⟩
    split <;> exact hobject
  key identity device hdevice := by
    obtain ⟨old, hold, rfl⟩ := Option.map_eq_some_iff.mp hdevice
    have hkey := h.key identity old hold
    split <;> exact hkey

theorem step_inverse {action : Action} (h : c.inventory.Inverse) (hs : c.step action = some c') :
    c'.inventory.Inverse := by
  cases action with
  | snapshot =>
    simp only [Client.step] at hs
    split at hs
    · obtain rfl := Option.some.inj hs
      exact h
    · cases hs
  | run result => exact runSnapshot_inverse h hs
  | signal signal =>
    simp only [Client.step] at hs
    split at hs
    · obtain rfl := Option.some.inj hs
      exact h
    · cases hs
  | callback => exact runCallback_inverse h hs
  | recovery => exact runRecovery_inverse h hs
  | event =>
    simp only [Client.step] at hs
    split at hs
    · cases hs
    · obtain rfl := Option.some.inj hs
      exact h
  | drop =>
    obtain rfl := Option.some.inj hs
    exact h
  | startDiscovery adapter =>
    obtain rfl := Option.some.inj hs
    exact (unsee_inverse h adapter).congr rfl rfl
  | discoveryStarted adapter started =>
    obtain rfl := Option.some.inj hs
    dsimp only
    split
    · exact h.congr rfl rfl
    · exact (unsee_inverse h adapter).congr rfl rfl
  | stopDiscovery =>
    obtain rfl := Option.some.inj hs
    exact h.congr rfl rfl

/-- The maps stay inverse to each other: a device is listed once, and it is found by its path. -/
theorem mapsInverse (h : Reaches step {} c) :
    c.inventory.Inverse ∧
      (∀ identity identity' device device', c.inventory.devices identity = some device →
        c.inventory.devices identity' = some device' → device.objectPath = device'.objectPath →
          identity = identity') ∧
      ∀ identity device, c.inventory.devices identity = some device →
        c.inventory.findDeviceByPath device.objectPath = some device := by
  have hinverse : c.inventory.Inverse :=
    h.invariant (I := fun d => d.inventory.Inverse) (.clear {}) fun hold _ hs => step_inverse hold hs
  refine ⟨hinverse, fun identity identity' device device' hdevice hdevice' hsame => ?_,
    fun identity device hdevice => ?_⟩
  · have hkey := hinverse.key identity device hdevice
    rw [hsame, hinverse.key identity' device' hdevice'] at hkey
    exact (Option.some.inj hkey).symm
  · rw [Inventory.findDeviceByPath, hinverse.key identity device hdevice]
    exact hdevice

def adapterPath : String := "/org/bluez/hci0"

def devicePath : String := "/org/bluez/hci0/dev_1"

/-- The properties of an object that has an address only. -/
def addressed (address : String) : Value :=
  .dictionary "s" "v" [(.string "Address", .variant (.string address))]

def interfaceAdded (path interface : String) (properties : Value) : Signal :=
  ⟨"InterfacesAdded", "/", [.objectPath path, .dictionary "s" "a{sv}" [(.string interface, properties)]]⟩

/-- `snapshot` from its first step to the last one. -/
def snapshotOf (objects : List (Value × Value)) : List Action :=
  [.snapshot, .run (.ok []), .run (.ok [.dictionary "o" "a{sa{sv}}" objects]), .run (.ok []),
    .run (.ok []), .run (.ok []),
    .run (.ok [])]

/-- An adapter and a device are added, the device twice: its identity changes with the address of
the adapter. -/
def rekeys : List Action :=
  snapshotOf [] ++
    [interfaceAdded devicePath kDevice (addressed "D"), interfaceAdded adapterPath kAdapter (addressed "A"),
      interfaceAdded devicePath kDevice (addressed "D")].flatMap fun signal =>
        Action.signal signal :: List.replicate 3 .callback

theorem mapsInverse_rekeyed :
    ∃ c : Client, c.inventory.devicePaths devicePath = some ("A", "D") ∧
      (c.inventory.devices (adapterPath, "D")).isNone ∧ c.inventory.Inverse :=
  have h : Reaches step {} _ := .of_isSome rekeys (by decide +kernel)
  ⟨_, by decide +kernel, by decide +kernel, (mapsInverse h).1⟩

end Client
end Dmn.Bluez
