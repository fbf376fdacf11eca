import Dmn.Bluez.Index

/-!
# The events and the inventory

A consumer that starts from what a successful snapshot returns and applies the
events has what the client has, as long as every change is announced: no
look-up of a property fails behind one that gives a field a new value, and a
device is stored under a key that no other one has.
-/

namespace Dmn.Bluez

open Dmn.Lib

/-- Who applies the events. -/
structure Consumer where
  adapters : String → Option Adapter := fun _ => none
  devices : String → Option Device := fun _ => none

namespace Consumer

def apply (c : Consumer) : Event → Consumer
  | .adapterAdded adapter | .adapterChanged adapter =>
    { c with adapters := Function.update c.adapters adapter.objectPath (some adapter) }
  | .adapterRemoved adapter => { c with adapters := Function.update c.adapters adapter.objectPath none }
  | .deviceAdded device | .deviceChanged device =>
    { c with devices := Function.update c.devices device.objectPath (some device) }
  | .deviceRemoved device => { c with devices := Function.update c.devices device.objectPath none }
  | .serviceUnavailable _ => {}
  | .serviceAvailable _ | .error _ => c

def applyAll (c : Consumer) (events : List Event) : Consumer := events.foldl apply c

theorem applyAll_append (c : Consumer) (events : List Event) (event : Event) :
    c.applyAll (events ++ [event]) = (c.applyAll events).apply event := by
  rw [applyAll, List.foldl_append]
  rfl

/-- The consumer has the adapters and the devices of the inventory, each under its object path. -/
structure Mirrors (c : Consumer) (i : Inventory) : Prop where
  adapters : c.adapters = i.adapters
  devices : ∀ path device, c.devices path = some device ↔
    device.objectPath = path ∧ ∃ identity, i.devices identity = some device

end Consumer

-- ---------------------------------------------------------------------------
-- Adapters
-- ---------------------------------------------------------------------------

/-- Every adapter is under its object path. -/
def Inventory.Own (i : Inventory) : Prop := ∀ path adapter, i.adapters path = some adapter →
    adapter.objectPath = path

namespace Inventory

variable {i : Inventory}

theorem Own.set (h : i.Own) (adapter : Adapter) :
    Own { i with adapters := Function.update i.adapters adapter.objectPath (some adapter) } := by
  intro path other hother
  change Function.update i.adapters adapter.objectPath (some adapter) path = some other at hother
  rw [Function.update_apply] at hother
  split at hother
  · rename_i hpath
    rw [← Option.some.inj hother, hpath]
  · exact h path other hother

theorem Own.remove (h : i.Own) (path : String) :
    Own { i with adapters := Function.update i.adapters path none } := by
  intro other adapter hother
  change Function.update i.adapters path none other = some adapter at hother
  rw [Function.update_apply] at hother
  split at hother
  · cases hother
  · exact h other adapter hother

theorem Own.congr {j : Inventory} (h : i.Own) (hadapters : j.adapters = i.adapters) : j.Own := by
  unfold Own
  rw [hadapters]
  exact h

theorem storeDevice_adapters (i : Inventory) (device : Device) : (i.storeDevice device).1.adapters =
    i.adapters := by
  have hcleared (j : Inventory) (prior : Option DeviceIdentity) :
      (j.cleared (i.deviceIdentity device) prior).adapters = j.adapters :=
    cleared_frame (f := Inventory.adapters) (fun _ _ => rfl) j _ prior
  unfold storeDevice
  dsimp only
  cases i.devices (i.deviceIdentity device) with
  | none => exact hcleared i _
  | some existing =>
    refine (hcleared _ _).trans ?_
    dsimp only
    split <;> rfl

theorem storeDevice_available (i : Inventory) (device : Device) : (i.storeDevice device).1.available =
    i.available := by
  have hcleared (j : Inventory) (prior : Option DeviceIdentity) :
      (j.cleared (i.deviceIdentity device) prior).available = j.available :=
    cleared_frame (f := Inventory.available) (fun _ _ => rfl) j _ prior
  unfold storeDevice
  dsimp only
  cases i.devices (i.deviceIdentity device) with
  | none => exact hcleared i _
  | some existing =>
    refine (hcleared _ _).trans ?_
    dsimp only
    split <;> rfl

theorem rekey_adapters (identity : DeviceIdentity) (device : Device) (i : Inventory) :
    (rekey identity device i).adapters = i.adapters := by
  unfold rekey
  dsimp only
  split
  · rfl
  · exact storeDevice_adapters _ _

end Inventory

theorem parseAdapter_objectPath {path : String} {properties : Value} {adapter : Adapter}
    (h : parseAdapter path properties = .ok adapter) : adapter.objectPath = path := by
  unfold parseAdapter at h
  obtain ⟨_, -, h⟩ := except_bind_eq_ok h
  obtain ⟨_, -, h⟩ := except_bind_eq_ok h
  obtain ⟨_, -, h⟩ := except_bind_eq_ok h
  obtain ⟨_, -, h⟩ := except_bind_eq_ok h
  exact Except.ok.inj h ▸ rfl

theorem updateAdapter_objectPath (changed : Value) (invalidated : List Value) (adapter : Adapter) :
    (final (updateAdapter changed invalidated) adapter).objectPath = adapter.objectPath := by
  let I (a : Adapter) : Prop := a.objectPath = adapter.objectPath
  have hmodify : ∀ {f : Adapter → Adapter}, (∀ a, (f a).objectPath = a.objectPath) →
      Keeps I (modify f : EStateM String Adapter PUnit) := fun hf => .modify fun a ha => (hf a).trans ha
  have hupdate : Keeps I (updateAdapter changed invalidated) := by
    unfold updateAdapter
    exact .get fun _ => .reads fun _ => .bind (hmodify fun _ => rfl) fun _ =>
      .get fun _ => .reads fun _ => .bind (hmodify fun _ => rfl) fun _ =>
      .get fun _ => .reads fun _ => .bind (hmodify fun _ => rfl) fun _ =>
      .get fun _ => .reads fun _ => .bind (hmodify fun _ => rfl) fun _ => hmodify fun _ => rfl
  exact hupdate adapter rfl

/-- What the primitive changes of the maps keep. -/
structure Stable (I : Inventory → Prop) : Prop where
  disowns : ∀ i : Inventory, I i →
    I { i.clear with discoveryActive := false, discoveryStarting := false, discoveryAdapter := "" }
  requests : ∀ i : Inventory, I i → I { i with recoveryRequested := true }
  adds : ∀ (i : Inventory) (adapter : Adapter), I i →
    I { i with adapters := Function.update i.adapters adapter.objectPath (some adapter) }
  changes : ∀ (i : Inventory) (path : String) (adapter changed : Adapter), I i → i.adapters path =
    some adapter →
    changed.objectPath = adapter.objectPath →
      I { i with adapters := Function.update i.adapters path (some changed) }
  removes : ∀ (i : Inventory) (path : String),
    I i → I { i with adapters := Function.update i.adapters path none }
  stores : ∀ (i : Inventory) (device : Device), I i → I (i.storeDevice device).1
  setsDevice : ∀ (i : Inventory) (identity : DeviceIdentity) (device : Option Device),
    I i → I (i.setDevice identity device)
  setsPath : ∀ (i : Inventory) (path : String) (identity : Option DeviceIdentity),
    I i → I (i.setPath path identity)

namespace Stable

variable {I : Inventory → Prop}

theorem pushes (event : Event) : Keeps (fun a : Applied => I a.inventory) (push event) := fun _ h => h

theorem alters {f : Inventory → Inventory} (hf : ∀ i, I i → I (f i)) :
    Keeps (fun a : Applied => I a.inventory) (alter f) :=
  fun a h => hf a.inventory h

theorem nameOwnerChanged (hI : Stable I) (name oldOwner newOwner : Value) :
    Keeps (fun a => I a.inventory) (nameOwnerChanged name oldOwner newOwner) := by
  have hrecovery : ∀ newOwner : String, Keeps (fun a : Applied => I a.inventory)
      (if newOwner ≠ "" then alter fun i => { i with recoveryRequested := true } else pure ()) := by
    intro newOwner
    split
    · exact alters hI.requests
    · exact .pure _
  unfold Bluez.nameOwnerChanged
  refine .reads fun name => ?_
  split
  · refine .reads fun oldOwner => .reads fun newOwner => ?_
    dsimp only
    split
    · exact .bind (alters hI.disowns) fun _ => .bind (pushes _) fun _ => hrecovery newOwner
    · exact hrecovery newOwner
  · exact .pure _

theorem addAdapter (hI : Stable I) (path : String) (properties : Value) :
    Keeps (fun a => I a.inventory) (addAdapter path properties) := by
  unfold Bluez.addAdapter
  intro a h
  refine final_reads_bind (I := fun a : Applied => I a.inventory) h fun adapter hadapter => ?_
  rw [← parseAdapter_objectPath hadapter]
  exact hI.adds a.inventory adapter h

theorem addDevice (hI : Stable I) (path : String) (properties : Value) :
    Keeps (fun a => I a.inventory) (addDevice path properties) := by
  unfold Bluez.addDevice
  refine .reads fun parsed => fun a h => ?_
  rw [final_get_bind]
  dsimp only
  refine Keeps.bind (I := fun a => I a.inventory) (fun b _ => ?_) (fun _ => ?_) a h
  · exact hI.stores _ _ h
  · split
    · exact pushes _
    · exact .pure _

theorem interfacesAdded (hI : Stable I) (path interfaces : Value) :
    Keeps (fun a => I a.inventory) (interfacesAdded path interfaces) := by
  have hdevice (path : String) : Keeps (fun a => I a.inventory) (interfacesAddedDevice path interfaces) := by
    refine .reads fun device => ?_
    split
    · exact hI.addDevice _ _
    · exact .pure _
  unfold Bluez.interfacesAdded
  refine .reads fun path => .reads fun adapter => ?_
  dsimp only
  split
  · exact .bind (hI.addAdapter _ _) fun _ => hdevice path
  · exact hdevice path

theorem removeInterfaces (hI : Stable I) (path : String) (interfaces : List Value) :
    Keeps (fun a => I a.inventory) (removeInterfaces path interfaces) := by
  have hadapter : Keeps (fun a => I a.inventory) (removeAdapter path) := by
    unfold removeAdapter
    refine .get fun a => ?_
    split
    · exact .pure _
    · exact .bind (pushes _) fun _ => alters fun i h => hI.removes i path h
  have hdevice : Keeps (fun a => I a.inventory) (removeDevice path) := by
    unfold removeDevice
    refine .get fun a => ?_
    dsimp only
    split
    · exact .pure _
    · split
      · exact alters fun i h => hI.setsPath i _ _ h
      · exact .bind (pushes _) fun _ => alters fun i h => hI.setsPath _ _ _ (hI.setsDevice i _ _ h)
  induction interfaces with
  | nil => exact .pure _
  | cons interface interfaces ih =>
    unfold Bluez.removeInterfaces
    refine .reads fun interface => ?_
    dsimp only
    split
    · exact .bind hadapter fun _ => ih
    · split
      · exact .bind hdevice fun _ => ih
      · exact ih

theorem changeAdapter (hI : Stable I) (path : String) (changed : Value) (invalidated : List Value) :
    Keeps (fun a => I a.inventory) (changeAdapter path changed invalidated) := by
  unfold Bluez.changeAdapter
  intro a h
  rw [final_get_bind]
  split
  · exact h
  · rename_i adapter hadapter
    have hobject := updateAdapter_objectPath changed invalidated adapter
    unfold final at hobject
    split <;> rename_i hupdate <;> rw [hupdate] at hobject <;> exact hI.changes _ _ _ _ h hadapter hobject

theorem rekey (hI : Stable I) (identity : DeviceIdentity) (device : Device) (i : Inventory) (h : I i) :
    I (rekey identity device i) := by
  unfold Bluez.rekey
  dsimp only
  split
  · exact hI.setsDevice _ _ _ h
  · exact hI.stores _ _ (hI.setsDevice _ _ _ (hI.setsDevice _ _ _ h))

theorem changeDevice (hI : Stable I) (path : String) (changed : Value) (invalidated : List Value) :
    Keeps (fun a => I a.inventory) (changeDevice path changed invalidated) := by
  have hset (identity : DeviceIdentity) (device : Option Device) :
      Keeps (fun a : Applied => I a.inventory) (alter fun i => i.setDevice identity device) :=
    alters fun i h => hI.setsDevice i identity device h
  unfold Bluez.changeDevice
  refine .get fun a => ?_
  dsimp only
  split
  · exact .pure _
  · split
    · exact .pure _
    · split
      · exact .bind (hset _ _) fun _ => .throw _
      · refine .bind (alters (hI.rekey _ _)) fun _ => .get fun b => ?_
        split
        · exact .pure _
        · split
          · exact .pure _
          · have hdone (device : Device) (identity : DeviceIdentity) (event : Event) :
              Keeps (fun a => I a.inventory) (do
                alter fun i => i.setDevice identity (some device)
                push event) := .bind (hset _ _) fun _ => pushes _
            split
            · exact .reads fun rssi => hdone _ _ _
            · exact hdone _ _ _

theorem applyMember (hI : Stable I) (signal : Signal) : Keeps (fun a => I a.inventory)
    (applyMember signal) := by
  unfold Bluez.applyMember
  split
  · split
    · exact hI.nameOwnerChanged _ _ _
    · split
      · unfold propertiesChanged
        refine .reads fun interface => .reads fun invalidated => ?_
        split
        · exact hI.changeAdapter _ _ _
        · split
          · exact hI.changeDevice _ _ _
          · exact .pure _
      · exact .pure _
  · split
    · exact hI.interfacesAdded _ _
    · split
      · unfold interfacesRemoved
        exact .reads fun path => .reads fun interfaces => hI.removeInterfaces path interfaces
      · exact .pure _
  · exact .pure _

theorem applySignal (hI : Stable I) {i : Inventory} {events : List Event} (h : I i) (signal : Signal) :
    I (applySignal signal ⟨i, events⟩).inventory := by
  rw [applySignal_inventory]
  exact hI.applyMember signal ⟨i, events⟩ h

end Stable

theorem own_stable : Stable Inventory.Own where
  disowns _ _ := nofun
  requests _ h := h.congr rfl
  adds _ adapter h := h.set adapter
  changes i path adapter changed h hadapter hpath := by
    rw [← h path adapter hadapter, ← hpath]
    exact h.set changed
  removes _ path h := h.remove path
  stores _ device h := h.congr (Inventory.storeDevice_adapters _ device)
  setsDevice _ _ _ h := h.congr rfl
  setsPath _ _ _ h := h.congr rfl

theorem Inventory.Own.applySignal {i : Inventory} {events : List Event} (h : i.Own) (signal : Signal) :
    (Bluez.applySignal signal ⟨i, events⟩).inventory.Own :=
  own_stable.applySignal h signal

theorem loadAdapters_own (objects : List (Value × Value)) : Keeps Inventory.Own (loadAdapters objects) := by
  induction objects with
  | nil => exact .pure _
  | cons object objects ih =>
    unfold loadAdapters
    refine .reads fun path => .reads fun properties => ?_
    dsimp only
    split
    · intro i h
      refine final_reads_bind h fun adapter hadapter => ?_
      rw [final_modify_bind, ← parseAdapter_objectPath hadapter]
      exact ih _ (h.set adapter)
    · exact ih

theorem loadDevices_own (previousDevices : DeviceIdentity → Option Device) (objects : List (Value × Value)) :
    Keeps Inventory.Own (loadDevices previousDevices objects) := by
  induction objects with
  | nil => exact .pure _
  | cons object objects ih =>
    unfold loadDevices
    refine .reads fun path => .reads fun properties => ?_
    dsimp only
    split
    · exact .reads fun parsed => .bind (.modify fun i h => h.congr (Inventory.storeDevice_adapters _ _))
        fun _ => ih
    · exact ih

theorem replay_own (signals : List Signal) : Keeps Inventory.Own (replay signals) := by
  induction signals with
  | nil => exact .pure _
  | cons signal signals ih =>
    unfold replay
    exact .reads fun lost => .bind (.modify fun i h => h.applySignal signal) fun _ => .bind ih fun _ => .pure _

/-- The maps are emptied first. -/
theorem reload_of {I : Inventory → Prop} {objects : Value} {staged : List Signal} {i j : Inventory}
    {ownerLost : Bool}
    (hclear : I { i.clear with available := i.available }) (hadapters : ∀ objects,
    Keeps I (loadAdapters objects))
    (hdevices : ∀ previousDevices objects, Keeps I (loadDevices previousDevices objects))
    (hreplay : Keeps I (replay staged))
    (h : reload objects staged i = .ok ownerLost j) : I j := by
  obtain ⟨_, loaded, hload, hstaged⟩ := bind_eq_ok (m := load objects i.devices) h
  have hloaded : I (final (load objects i.devices) i) := by
    unfold load
    rw [final_modify_bind]
    exact Keeps.reads (fun objects => .bind (hadapters objects) fun _ => hdevices _ objects) _ hclear
  have hfinal := hreplay loaded (by unfold final at hloaded; rwa [hload] at hloaded)
  unfold final at hfinal
  rwa [hstaged] at hfinal

theorem reload_sane {objects : Value} {staged : List Signal} {i j : Inventory} {ownerLost : Bool}
    (h : reload objects staged i = .ok ownerLost j) : j.Inverse ∧ j.Own :=
  ⟨reload_of ((Inventory.Inverse.clear i).congr rfl rfl) loadAdapters_keeps loadDevices_keeps
    (replay_keeps staged) h,
    reload_of nofun loadAdapters_own loadDevices_own (replay_own staged) h⟩

theorem parseDevice_objectPath {path : String} {properties : Value} {device : Device}
    (h : parseDevice path properties = .ok device) : device.objectPath = path := by
  unfold parseDevice at h
  obtain ⟨_, -, h⟩ := except_bind_eq_ok h
  obtain ⟨_, -, h⟩ := except_bind_eq_ok h
  obtain ⟨_, -, h⟩ := except_bind_eq_ok h
  obtain ⟨_, -, h⟩ := except_bind_eq_ok h
  obtain ⟨_, -, h⟩ := except_bind_eq_ok h
  obtain ⟨_, -, h⟩ := except_bind_eq_ok h
  obtain ⟨_, -, h⟩ := except_bind_eq_ok h
  exact Except.ok.inj h ▸ rfl

-- ---------------------------------------------------------------------------
-- What is found by path
-- ---------------------------------------------------------------------------

namespace Inventory

variable {i : Inventory} {device : Device} {path : String} {identity : DeviceIdentity}

/-- No other device has the key of this one. -/
def free (i : Inventory) (device : Device) : Bool :=
  (i.devices (i.deviceIdentity device)).all (·.objectPath = device.objectPath)

theorem free_iff : i.free device ↔
    ∀ existing, i.devices (i.deviceIdentity device) = some existing → existing.objectPath =
      device.objectPath := by
  rw [free, Option.all_eq_true]
  simp only [decide_eq_true_eq]

theorem Inverse.find_eq (h : i.Inverse) :
    i.findDeviceByPath path = some device ↔ device.objectPath = path ∧ ∃ identity,
      i.devices identity = some device := by
  rw [findDeviceByPath, Option.bind_eq_some_iff]
  constructor
  · rintro ⟨identity, hpath, hdevice⟩
    obtain ⟨found, hfound, hfoundPath⟩ := h.path path identity hpath
    rw [hdevice] at hfound
    obtain rfl := Option.some.inj hfound
    exact ⟨hfoundPath, identity, hdevice⟩
  · rintro ⟨hpath, identity, hdevice⟩
    exact ⟨identity, hpath ▸ h.key identity device hdevice, hdevice⟩

/-- The adapter of the message is added before its device. -/
def withAdapter (i : Inventory) (path : String) (interfaces : Value) : Except String Inventory := do
  match ← findInterface interfaces kAdapter with
  | some properties =>
    let adapter ← parseAdapter path properties
    return { i with adapters := Function.update i.adapters path (some adapter) }
  | none => return i

/-- The maps before and after, compared by what is found. -/
theorem find_update {j : Inventory} (hi : i.Inverse) (hj : j.Inverse)
    (hself : ∃ identity, j.devices identity = some device)
    (hothers : ∀ other : Device, other.objectPath ≠ device.objectPath →
      ((∃ identity, j.devices identity = some other) ↔ ∃ identity, i.devices identity = some other)) :
    j.findDeviceByPath = Function.update i.findDeviceByPath device.objectPath (some device) := by
  funext path
  rw [Function.update_apply]
  split
  · rename_i hpath
    exact hj.find_eq.mpr ⟨hpath.symm, hself⟩
  · rename_i hpath
    refine Option.ext fun other => ?_
    rw [hi.find_eq, hj.find_eq]
    refine and_congr_right fun hother => hothers other fun hsame => hpath (hother.symm.trans hsame)

theorem find_remove {j : Inventory} (hi : i.Inverse) (hj : j.Inverse)
    (hgone : ∀ identity other, j.devices identity = some other → other.objectPath ≠ path)
    (hothers : ∀ other : Device, other.objectPath ≠ path →
      ((∃ identity, j.devices identity = some other) ↔ ∃ identity, i.devices identity = some other)) :
    j.findDeviceByPath = Function.update i.findDeviceByPath path none := by
  funext found
  rw [Function.update_apply]
  refine Option.ext fun other => ?_
  rw [hj.find_eq]
  split
  · rename_i hpath
    exact iff_of_false (fun ⟨hother, identity, hdevice⟩ => hgone identity other hdevice
      (hother.trans hpath)) nofun
  · rename_i hpath
    rw [hi.find_eq]
    exact and_congr_right fun hother => hothers other fun hsame => hpath (hother.symm.trans hsame)

theorem Inverse.find_storeDevice (h : i.Inverse) (hfree : i.free device) :
    (i.storeDevice device).1.findDeviceByPath =
      Function.update i.findDeviceByPath device.objectPath (some (i.storedDevice device)) := by
  rw [← storedDevice_objectPath i device]
  refine find_update h (h.storeDevice device) ⟨i.deviceIdentity device, ?_⟩ fun other hother =>
    exists_congr fun identity => ?_
  · rw [storeDevice_devices, if_pos rfl]
  · rw [storedDevice_objectPath] at hother
    rw [storeDevice_devices]
    split
    · rename_i hidentity
      subst hidentity
      refine iff_of_false (fun heq => ?_) fun heq => hother (free_iff.mp hfree other heq)
      rw [← Option.some.inj heq, storedDevice_objectPath] at hother
      exact hother rfl
    · split
      · rename_i hpath
        refine iff_of_false nofun fun heq => ?_
        obtain ⟨found, hfound, hfoundPath⟩ := h.path _ _ hpath
        rw [heq] at hfound
        exact hother (Option.some.inj hfound ▸ hfoundPath)
      · exact Iff.rfl

theorem Inverse.find_setDevice (h : i.Inverse) (hpath : i.devicePaths device.objectPath = some identity) :
    (i.setDevice identity (some device)).findDeviceByPath =
      Function.update i.findDeviceByPath device.objectPath (some device) := by
  refine find_update h (h.setDevice hpath) ⟨identity, ?_⟩ fun other hother => exists_congr fun found => ?_
  · rw [setDevice_devices, if_pos rfl]
  · rw [setDevice_devices]
    split
    · rename_i hsame
      subst hsame
      refine iff_of_false (fun heq => hother (Option.some.inj heq ▸ rfl)) fun heq => ?_
      obtain ⟨old, hold, holdPath⟩ := h.path _ _ hpath
      rw [heq] at hold
      exact hother (Option.some.inj hold ▸ holdPath)
    · exact Iff.rfl

theorem Inverse.find_removed (h : i.Inverse) (hpath : i.devicePaths path = some identity) :
    ((i.setDevice identity none).setPath path none).findDeviceByPath =
    Function.update i.findDeviceByPath path none := by
  obtain ⟨old, hold, holdPath⟩ := h.path path identity hpath
  refine find_remove h (h.remove hpath) (fun found other hother hsame => ?_) fun other hother =>
    exists_congr fun found => ?_
  · change (i.setDevice identity none).devices found = some other at hother
    rw [setDevice_devices] at hother
    split at hother
    · cases hother
    · rename_i hne
      have hkey := h.key found other hother
      rw [hsame, hpath] at hkey
      exact hne (Option.some.inj hkey).symm
  · show (i.setDevice identity none).devices found = some other ↔ _
    rw [setDevice_devices]
    split
    · rename_i hsame
      subst hsame
      refine iff_of_false nofun fun heq => ?_
      rw [hold] at heq
      exact hother (Option.some.inj heq ▸ holdPath)
    · exact Iff.rfl

theorem rekey_devicePaths (hpath : i.devicePaths device.objectPath = some identity) :
    (Bluez.rekey identity device i).devicePaths device.objectPath ≠ none := by
  unfold Bluez.rekey
  dsimp only
  split
  · show i.devicePaths device.objectPath ≠ none
    rw [hpath]
    exact nofun
  · rw [storeDevice_devicePaths, if_pos rfl]
    exact nofun

/-- The device gets a new key, and the others stay. -/
theorem Inverse.find_rekey (h : i.Inverse) (hpath : i.devicePaths device.objectPath = some identity)
    (hfree : i.free device)
    {other : String} (hother : other ≠ device.objectPath) :
    (Bluez.rekey identity device i).findDeviceByPath other = i.findDeviceByPath other := by
  have hset := h.find_setDevice hpath
  have hrekey := h.rekey hpath
  obtain ⟨old, hold, holdPath⟩ := h.path _ _ hpath
  unfold Bluez.rekey at hrekey ⊢
  dsimp only at hrekey ⊢
  split at hrekey
  · rename_i hsame
    rw [if_pos hsame, hset, Function.update_of_ne hother]
  · rename_i hne
    rw [if_neg hne]
    refine Option.ext fun found => ?_
    rw [hrekey.find_eq, h.find_eq]
    refine and_congr_right fun hfound => exists_congr fun key => ?_
    rw [storeDevice_devices]
    change (if key = i.deviceIdentity device then _ else _) = _ ↔ _
    have hfoundPath : found.objectPath ≠ device.objectPath := hfound ▸ hother
    split
    · rename_i hkey
      subst hkey
      refine iff_of_false (fun heq => ?_) fun heq => hfoundPath (free_iff.mp hfree found heq)
      rw [← Option.some.inj heq, storedDevice_objectPath] at hfoundPath
      exact hfoundPath rfl
    · change (if i.devicePaths device.objectPath = some key then none else
        (((i.setDevice identity (some device)).setDevice identity none).devices key)) = some found ↔ _
      rw [hpath]
      split
      · rename_i hkey
        obtain rfl := Option.some.inj hkey
        refine iff_of_false nofun fun heq => ?_
        rw [hold] at heq
        exact hfoundPath (Option.some.inj heq ▸ holdPath)
      · rename_i hkey
        have hne' : key ≠ identity := fun heq => hkey (congrArg some heq.symm)
        rw [setDevice_devices, setDevice_devices, if_neg hne', if_neg hne']

end Inventory

-- ---------------------------------------------------------------------------
-- Announced changes
-- ---------------------------------------------------------------------------

/-- What the inventory shows under the object paths. -/
def Inventory.shown (i : Inventory) : Consumer := ⟨i.adapters, i.findDeviceByPath⟩

/-- The consumer has applied the events. -/
structure Mirrored (c : Consumer) (a : Applied) : Prop where
  inverse : a.inventory.Inverse
  own : a.inventory.Own
  shown : c.applyAll a.events = a.inventory.shown

/-- The update has looked up the signal strength. -/
theorem updateDevice_rssi {changed : Value} {invalidated : List Value} {device updated : Device}
    (h : updateDevice changed invalidated device = .ok () updated) : ∃ rssi,
    changedProperty changed "RSSI" = .ok rssi := by
  unfold updateDevice at h
  obtain ⟨_, _, -, h⟩ := bind_eq_ok h
  obtain ⟨_, -, h⟩ := reads_bind_eq_ok h
  obtain ⟨_, _, -, h⟩ := bind_eq_ok h
  obtain ⟨_, _, -, h⟩ := bind_eq_ok h
  obtain ⟨_, -, h⟩ := reads_bind_eq_ok h
  obtain ⟨_, _, -, h⟩ := bind_eq_ok h
  obtain ⟨_, _, -, h⟩ := bind_eq_ok h
  obtain ⟨_, -, h⟩ := reads_bind_eq_ok h
  obtain ⟨_, _, -, h⟩ := bind_eq_ok h
  obtain ⟨_, _, -, h⟩ := bind_eq_ok h
  obtain ⟨_, hrssi, -⟩ := reads_bind_eq_ok h
  obtain ⟨rssi, hfound, -⟩ := except_bind_eq_ok hrssi
  exact ⟨rssi, hfound⟩

/-- An update that throws has changed nothing. -/
def whole {α : Type} [DecidableEq α] (update : EStateM String α Unit) (record : α) : Bool :=
  match update record with
  | .ok .. => true
  | .error _ left => decide (left = record)

-- ---------------------------------------------------------------------------
-- The look-ups of an update
-- ---------------------------------------------------------------------------

/-- What a look-up makes of a field. -/
inductive Look
  | keeps
  | sets
  | fails
  deriving DecidableEq

def look {α : Type} [DecidableEq α] (old : α) : Except String α → Look
  | .ok new => if new = old then .keeps else .sets
  | .error _ => .fails

/-- No look-up fails behind one that gives its field a new value. -/
def unbroken : List Look → Bool
  | [] | .fails :: _ => true
  | .keeps :: looks => unbroken looks
  | .sets :: looks => looks.all (· ≠ .fails)

def Adapter.looks (changed : Value) (invalidated : List Value) (adapter : Adapter) : List Look :=
  [look adapter.address ((stringChange changed invalidated "Address" (some adapter.address)).map (·.getD "")),
    look adapter.aliasName (stringChange changed invalidated "Alias" adapter.aliasName),
    look adapter.reportedName (stringChange changed invalidated "Name" adapter.reportedName),
    look adapter.powered (boolChange changed invalidated "Powered" adapter.powered)]

def Device.looks (changed : Value) (invalidated : List Value) (device : Device) : List Look :=
  [look device.address ((stringChange changed invalidated "Address" (some device.address)).map (·.getD "")),
    look device.aliasName (stringChange changed invalidated "Alias" device.aliasName),
    look device.reportedName (stringChange changed invalidated "Name" device.reportedName),
    look device.rssi (rssiChange changed invalidated device.rssi),
    look device.paired (boolChange changed invalidated "Paired" device.paired),
    look device.connected (boolChange changed invalidated "Connected" device.connected),
    look device.servicesResolved (boolChange changed invalidated "ServicesResolved" device.servicesResolved)]

/-- What the look-ups say of an update: it succeeds if none of them fails, and
changes nothing if it throws and they are unbroken. -/
structure Looks {α : Type} [DecidableEq α] (looks : List Look) (update : EStateM String α Unit)
    (record : α) : Prop where
  succeeds : .fails ∉ looks ↔ ∃ updated, update record = .ok () updated
  whole : unbroken looks → whole update record

section
variable {α β γ : Type} [DecidableEq α] [DecidableEq γ] {update rest : EStateM String α Unit} {record : α}
  {looks : List Look}

theorem Looks.done (h : update record = .ok () updated) : Looks [] update record :=
  ⟨iff_of_true List.not_mem_nil ⟨updated, h⟩, fun _ => by rw [Bluez.whole, h]⟩

/-- A round of an update: a look-up, and the field it is for. -/
theorem Looks.round {x : Except String β} {old : γ} (read : β → γ) (set : β → α → α)
    (hupdate : update record = (do let b ← reads x; modify (set b); rest : EStateM String α Unit) record)
    (hsame : ∀ b, read b = old → set b record = record) (hrest : ∀ b, Looks looks rest (set b record)) :
    Looks (look old (x.map read) :: looks) update record := by
  cases x with
  | error e =>
    have hfails : update record = .error e record := hupdate
    refine ⟨iff_of_false (fun h => h List.mem_cons_self) ?_, fun _ => ?_⟩
    · rintro ⟨updated, hok⟩
      cases hfails.symm.trans hok
    · rw [Bluez.whole, hfails]
      exact decide_eq_true rfl
  | ok b =>
    have hgoes : update record = rest (set b record) := hupdate
    have hne : look old ((Except.ok b : Except String β).map read) ≠ .fails := by
      simp only [Except.map, look]
      split <;> nofun
    refine ⟨?_, fun h => ?_⟩
    · rw [hgoes, ← (hrest b).succeeds, List.mem_cons, not_or]
      exact and_iff_right hne.symm
    · by_cases hread : read b = old
      · have hset := hsame b hread
        have hlook : look old ((Except.ok b : Except String β).map read) = .keeps := if_pos hread
        rw [hlook] at h
        have hwhole := (hrest b).whole h
        rw [Bluez.whole, hset] at hwhole
        rw [Bluez.whole, hgoes, hset]
        exact hwhole
      · have hlook : look old ((Except.ok b : Except String β).map read) = .sets := if_neg hread
        rw [hlook] at h
        have hnone : .fails ∉ looks := fun hmem => of_decide_eq_true (List.all_eq_true.mp h _ hmem) rfl
        obtain ⟨updated, hok⟩ := (hrest b).succeeds.mp hnone
        rw [Bluez.whole, hgoes, hok]

/-- The look-up is for the whole field. -/
theorem Looks.field {x : Except String γ} {old : γ} (set : γ → α → α)
    (hupdate : update record = (do let b ← reads x; modify (set b); rest : EStateM String α Unit) record)
    (hsame : set old record = record) (hrest : ∀ b, Looks looks rest (set b record)) :
    Looks (look old x :: looks) update record := by
  have hround : Looks (look old (x.map id) :: looks) update record :=
    .round id set hupdate (fun b hb => by rw [show b = old from hb, hsame]) hrest
  cases x <;> exact hround

end

theorem Adapter.looks_spec (changed : Value) (invalidated : List Value) (adapter : Adapter) :
    Looks (adapter.looks changed invalidated) (updateAdapter changed invalidated) adapter := by
  refine .round (fun address : Option String => address.getD "")
    (fun address (adapter : Adapter) => { adapter with address := address.getD "" }) rfl
    (fun address heq => by rw [heq]) fun address => ?_
  refine .field (fun aliasName (adapter : Adapter) => { adapter with aliasName }) rfl rfl fun aliasName => ?_
  refine .field (fun reportedName (adapter : Adapter) => { adapter with reportedName }) rfl rfl
    fun reportedName => ?_
  exact .field (fun powered (adapter : Adapter) => { adapter with powered }) rfl rfl fun powered => .done rfl

theorem Device.looks_spec (changed : Value) (invalidated : List Value) (device : Device) :
    Looks (device.looks changed invalidated) (updateDevice changed invalidated) device := by
  refine .round (fun address : Option String => address.getD "")
    (fun address (device : Device) => { device with address := address.getD "" }) rfl
    (fun address heq => by rw [heq]) fun address => ?_
  refine .field (fun aliasName (device : Device) => { device with aliasName }) rfl rfl fun aliasName => ?_
  refine .field (fun reportedName (device : Device) => { device with reportedName }) rfl rfl
    fun reportedName => ?_
  refine .field (fun rssi (device : Device) => { device with rssi }) rfl rfl fun rssi => ?_
  refine .field (fun paired (device : Device) => { device with paired }) rfl rfl fun paired => ?_
  refine .field (fun connected (device : Device) => { device with connected }) rfl rfl fun connected => ?_
  exact .field (fun servicesResolved (device : Device) => { device with servicesResolved }) rfl rfl
    fun servicesResolved => .done rfl

/-- The address that the look-up gives. -/
def Device.changedAddress (changed : Value) (invalidated : List Value) (device : Device) : String :=
  match stringChange changed invalidated "Address" (some device.address) with
  | .ok address => address.getD ""
  | .error _ => device.address

/-- What the key of a device is made of. -/
theorem updateDevice_key {changed : Value} {invalidated : List Value} {device updated : Device}
    (h : updateDevice changed invalidated device = .ok () updated) :
    updated.address = device.changedAddress changed invalidated ∧ updated.adapterPath = device.adapterPath ∧
      updated.objectPath = device.objectPath := by
  let I (d : Device) : Prop := d.address = device.changedAddress changed invalidated ∧
    d.adapterPath = device.adapterPath ∧ d.objectPath = device.objectPath
  have hmodify : ∀ {f : Device → Device},
      (∀ d, (f d).address = d.address ∧ (f d).adapterPath = d.adapterPath ∧ (f d).objectPath = d.objectPath) →
      Keeps I (modify f : EStateM String Device PUnit) := fun hf => .modify fun d hd =>
        ⟨(hf d).1.trans hd.1, (hf d).2.1.trans hd.2.1, (hf d).2.2.trans hd.2.2⟩
  unfold updateDevice at h
  obtain ⟨_, _, hget, h⟩ := bind_eq_ok h
  cases hget
  obtain ⟨address, haddress, h⟩ := reads_bind_eq_ok h
  obtain ⟨_, changedDevice, hset, h⟩ := bind_eq_ok h
  cases hset
  have hstart : I { device with address := address.getD "" } := by
    refine ⟨?_, rfl, rfl⟩
    rw [Device.changedAddress, haddress]
  refine Keeps.of_ok (I := I) ?_ hstart h
  exact .get fun _ => .reads fun _ => .bind (hmodify fun _ => ⟨rfl, rfl, rfl⟩) fun _ =>
    .get fun _ => .reads fun _ => .bind (hmodify fun _ => ⟨rfl, rfl, rfl⟩) fun _ =>
    .get fun _ => .reads fun _ => .bind (hmodify fun _ => ⟨rfl, rfl, rfl⟩) fun _ =>
    .get fun _ => .reads fun _ => .bind (hmodify fun _ => ⟨rfl, rfl, rfl⟩) fun _ =>
    .get fun _ => .reads fun _ => .bind (hmodify fun _ => ⟨rfl, rfl, rfl⟩) fun _ =>
    .get fun _ => .reads fun _ => .bind (hmodify fun _ => ⟨rfl, rfl, rfl⟩) fun _ => hmodify fun _ =>
      ⟨rfl, rfl, rfl⟩

namespace Mirrored

variable {c : Consumer} {a : Applied} {j : Inventory}

theorem announce {event : Event} (h : Mirrored c a) (hinverse : j.Inverse) (hown : j.Own)
    (hshown : a.inventory.shown.apply event = j.shown) : Mirrored c ⟨j, a.events ++ [event]⟩ where
  inverse := hinverse
  own := hown
  shown := by rw [Consumer.applyAll_append, h.shown, hshown]

theorem same (h : Mirrored c a) (hinverse : j.Inverse) (hown : j.Own) (hshown : j.shown = a.inventory.shown) :
    Mirrored c ⟨j, a.events⟩ := ⟨hinverse, hown, h.shown.trans hshown.symm⟩

theorem nameOwnerChanged (name oldOwner newOwner : Value) : Keeps (Mirrored c)
    (nameOwnerChanged name oldOwner newOwner) := by
  have hrecovery : ∀ newOwner : String, Keeps (Mirrored c)
      (if newOwner ≠ "" then alter fun i => { i with recoveryRequested := true } else pure ()) := by
    intro newOwner
    split
    · exact fun a h => h.same (h.inverse.congr rfl rfl) (h.own.congr rfl) rfl
    · exact .pure _
  unfold Bluez.nameOwnerChanged
  refine .reads fun name => ?_
  split
  · refine .reads fun oldOwner => .reads fun newOwner => ?_
    dsimp only
    split
    · intro a h
      rw [final_alter_bind, final_push_bind]
      exact hrecovery newOwner _ (h.announce ((Inventory.Inverse.clear a.inventory).congr rfl rfl) nofun rfl)
    · exact hrecovery newOwner
  · exact .pure _

theorem addAdapter (path : String) (properties : Value) : Keeps (Mirrored c) (addAdapter path properties) := by
  unfold Bluez.addAdapter
  intro a h
  refine final_reads_bind h fun adapter hadapter => ?_
  rw [← parseAdapter_objectPath hadapter]
  exact h.announce (h.inverse.congr rfl rfl) (h.own.set adapter) rfl

theorem addDevice {path : String} {properties : Value} (h : Mirrored c a)
    (hfree : ∀ device, parseDevice path properties = .ok device → a.inventory.free device) :
    Mirrored c (final (addDevice path properties) a) := by
  unfold Bluez.addDevice
  refine final_reads_bind h fun parsed hparsed => ?_
  rw [final_get_bind]
  dsimp only
  rw [final_alter_bind]
  generalize hdevice : ({ parsed with seenDuringDiscovery := a.inventory.discovering parsed } : Device) = device
  have hpath : device.objectPath = path := by
    rw [← hdevice]
    show parsed.objectPath = path
    exact parseDevice_objectPath hparsed
  have hdeviceFree : a.inventory.free device := by
    rw [← hdevice]
    exact hfree parsed hparsed
  have hfind := h.inverse.find_storeDevice hdeviceFree
  have hshown : a.inventory.shown.apply (.deviceChanged (a.inventory.storedDevice device)) =
      (a.inventory.storeDevice device).1.shown := by
    rw [Inventory.shown, Inventory.shown, hfind, Inventory.storeDevice_adapters, Consumer.apply,
      Inventory.storedDevice_objectPath]
  have hfound : (a.inventory.storeDevice device).1.findDeviceByPath path =
    some (a.inventory.storedDevice device) := by
    rw [hfind, hpath, Function.update_self]
  have hinverse := h.inverse.storeDevice device
  have hown : (a.inventory.storeDevice device).1.Own := h.own.congr (Inventory.storeDevice_adapters _ _)
  rw [hfound]
  dsimp only
  split <;> exact h.announce hinverse hown hshown

theorem interfacesAdded {path : String} {interfaces : Value} (h : Mirrored c a)
    (hfree : ∀ i properties device, a.inventory.withAdapter path interfaces = .ok i →
      findInterface interfaces kDevice = .ok (some properties) → parseDevice path properties =
        .ok device → i.free device) :
    Mirrored c (final (interfacesAdded (.objectPath path) interfaces) a) := by
  have hdevice {b : Applied} (hb : Mirrored c b) (hi : a.inventory.withAdapter path interfaces =
    .ok b.inventory) :
      Mirrored c (final (do
        match ← reads (findInterface interfaces kDevice) with
        | some properties => Bluez.addDevice path properties
        | none => pure ()) b) := by
    refine final_reads_bind hb fun found hfound => ?_
    cases found with
    | none => exact hb
    | some properties => exact hb.addDevice fun device hparsed => hfree _ _ _ hi hfound hparsed
  unfold Bluez.interfacesAdded
  refine final_reads_bind (x := .ok path) h fun found hpath => ?_
  obtain rfl := Except.ok.inj hpath
  refine final_reads_bind h fun found hfound => ?_
  cases found with
  | none => exact hdevice h (by simp only [Inventory.withAdapter, hfound]; rfl)
  | some properties =>
    refine final_bind_of (I := Mirrored c) (addAdapter path properties a h) fun _ b hb => ?_
    have hadded := addAdapter (c := c) path properties a h
    unfold final at hadded
    rw [hb] at hadded
    refine hdevice hadded ?_
    unfold Bluez.addAdapter at hb
    obtain ⟨adapter, hadapter, hb⟩ := reads_bind_eq_ok hb
    obtain ⟨-, rfl⟩ := EStateM.Result.ok.inj hb
    unfold Inventory.withAdapter
    rw [hfound]
    show (do
      let adapter ← parseAdapter path properties
      pure { a.inventory with adapters := Function.update a.inventory.adapters path (some adapter) }) =
        Except.ok _
    rw [hadapter]
    rfl

theorem removeAdapter (path : String) : Keeps (Mirrored c) (removeAdapter path) := by
  unfold Bluez.removeAdapter
  intro a h
  rw [final_get_bind]
  split
  · exact h
  · rename_i adapter hadapter
    refine h.announce (h.inverse.congr rfl rfl) (h.own.remove path) ?_
    rw [← h.own path adapter hadapter]
    rfl

theorem removeDevice (path : String) : Keeps (Mirrored c) (removeDevice path) := by
  unfold Bluez.removeDevice
  intro a h
  rw [final_get_bind]
  dsimp only
  split
  · exact h
  · rename_i identity hpath
    obtain ⟨device, hdevice, hdevicePath⟩ := h.inverse.path path identity hpath
    rw [hdevice]
    refine h.announce (h.inverse.remove hpath) (h.own.congr rfl) ?_
    unfold Inventory.shown
    rw [h.inverse.find_removed hpath, Consumer.apply, hdevicePath]
    rfl

theorem removeInterfaces (path : String) (interfaces : List Value) : Keeps (Mirrored c)
    (removeInterfaces path interfaces) := by
  induction interfaces with
  | nil => exact .pure _
  | cons interface interfaces ih =>
    unfold Bluez.removeInterfaces
    refine .reads fun interface => ?_
    dsimp only
    split
    · exact .bind (removeAdapter path) fun _ => ih
    · split
      · exact .bind (removeDevice path) fun _ => ih
      · exact ih

theorem changeAdapter {path : String} {changed : Value} {invalidated : List Value} (h : Mirrored c a)
    (hwhole : ∀ adapter, a.inventory.adapters path = some adapter →
    whole (updateAdapter changed invalidated) adapter) :
    Mirrored c (final (changeAdapter path changed invalidated) a) := by
  unfold Bluez.changeAdapter
  rw [final_get_bind]
  split
  · exact h
  · rename_i adapter hadapter
    have hobject := updateAdapter_objectPath changed invalidated adapter
    have hpath := h.own path adapter hadapter
    have hadapterWhole := hwhole adapter hadapter
    unfold final at hobject
    unfold whole at hadapterWhole
    split <;> rename_i hupdate <;> rw [hupdate] at hobject hadapterWhole
    · -- the record that is stored is the one that was there
      rename_i left
      obtain rfl : left = adapter := of_decide_eq_true hadapterWhole
      have hsame : ({ a.inventory with
          adapters := Function.update a.inventory.adapters path (some left) } : Inventory) = a.inventory := by
        rw [← hadapter, Function.update_eq_self]
      rw [final_alter_bind, hsame]
      exact h
    · refine h.announce (h.inverse.congr rfl rfl) ?_ ?_
      · rw [← hpath, ← hobject]
        exact h.own.set _
      · rw [← hpath, ← hobject]
        rfl

theorem changeDevice {path : String} {changed : Value} {invalidated : List Value} (h : Mirrored c a)
    (hwhole : ∀ device, a.inventory.findDeviceByPath path = some device →
    whole (updateDevice changed invalidated) device)
    (hfree : ∀ device updated, a.inventory.findDeviceByPath path = some device →
      updateDevice changed invalidated device = .ok () updated → a.inventory.free updated) :
    Mirrored c (final (changeDevice path changed invalidated) a) := by
  unfold Bluez.changeDevice
  rw [final_get_bind]
  dsimp only
  split
  · exact h
  · rename_i identity hidentity
    obtain ⟨device, hdevice, rfl⟩ := h.inverse.path path identity hidentity
    have hfound : a.inventory.findDeviceByPath device.objectPath = some device := by
      rw [Inventory.findDeviceByPath, hidentity]
      exact hdevice
    have hobject := updateDevice_objectPath changed invalidated device
    have hdeviceWhole := hwhole device hfound
    unfold final at hobject
    unfold whole at hdeviceWhole
    rw [hdevice]
    dsimp only
    split <;> rename_i hupdate <;> rw [hupdate] at hobject hdeviceWhole
    · rename_i left
      obtain rfl : left = device := of_decide_eq_true hdeviceWhole
      have hsame : a.inventory.setDevice identity (some left) = a.inventory := by
        rw [Inventory.setDevice, ← hdevice, Function.update_eq_self]
      rw [final_alter_bind, hsame]
      exact h
    · rename_i updated
      have hpath : a.inventory.devicePaths updated.objectPath = some identity := hobject ▸ hidentity
      have hrekey := h.inverse.rekey hpath
      have hown : (rekey identity updated a.inventory).Own := h.own.congr (Inventory.rekey_adapters _ _ _)
      rw [final_alter_bind, final_get_bind]
      dsimp only
      rw [← hobject]
      split
      · rename_i hnone
        exact absurd hnone (Inventory.rekey_devicePaths hpath)
      · rename_i identity' hidentity'
        obtain ⟨stored, hstored, hstoredPath⟩ := hrekey.path _ identity' hidentity'
        rw [hstored]
        have hdone (seen : Bool) : Mirrored c ⟨(rekey identity updated a.inventory).setDevice identity'
            (some { stored with seenDuringDiscovery := seen }),
            a.events ++ [.deviceChanged { stored with seenDuringDiscovery := seen }]⟩ := by
          have hset : (rekey identity updated a.inventory).devicePaths
              ({ stored with seenDuringDiscovery := seen } : Device).objectPath = some identity' :=
                hstoredPath ▸ hidentity'
          refine h.announce (hrekey.setDevice hset) (hown.congr rfl) ?_
          have hothers : Function.update a.inventory.findDeviceByPath stored.objectPath
                (some { stored with seenDuringDiscovery := seen }) =
              Function.update (rekey identity updated a.inventory).findDeviceByPath stored.objectPath
                (some { stored with seenDuringDiscovery := seen }) := by
            funext other
            rw [Function.update_apply, Function.update_apply]
            split
            · rfl
            · rename_i hother
              exact (h.inverse.find_rekey hpath (hfree device updated hfound hupdate)
                (hstoredPath ▸ hother)).symm
          unfold Inventory.shown
          rw [hrekey.find_setDevice hset, Consumer.apply, hothers]
          rw [show ((rekey identity updated a.inventory).setDevice identity' _).adapters =
            a.inventory.adapters from
            Inventory.rekey_adapters _ _ _]
        dsimp only
        split
        · obtain ⟨rssi, hrssi⟩ := updateDevice_rssi hupdate
          rw [hrssi]
          exact hdone _
        · exact hdone _

end Mirrored

-- ---------------------------------------------------------------------------
-- Signals
-- ---------------------------------------------------------------------------

/-- The device that the message adds is stored under a key that no other one has. -/
def Inventory.addsFree (i : Inventory) (path : String) (interfaces : Value) : Bool :=
  match i.withAdapter path interfaces, findInterface interfaces kDevice with
  | .ok added, .ok (some properties) =>
    match parseDevice path properties with
    | .ok device => added.free device
    | .error _ => true
  | _, _ => true

/-- If a look-up fails, none before it has given a field a new value; if none
does, the address that was looked up makes a key that no other device has. -/
def Inventory.changesFree (i : Inventory) (changed : Value) (invalidated : List Value) (device : Device) :
    Bool :=
  if .fails ∈ device.looks changed invalidated then unbroken (device.looks changed invalidated)
  else i.free { device with address := device.changedAddress changed invalidated }

theorem unbroken_of_notMem {looks : List Look} (h : .fails ∉ looks) : unbroken looks := by
  induction looks with
  | nil => rfl
  | cons first looks ih =>
    obtain ⟨hfirst, hlooks⟩ := not_or.mp (mt List.mem_cons.mpr h)
    cases first with
    | keeps => exact ih hlooks
    | sets =>
      exact List.all_eq_true.mpr fun other hmem =>
        decide_eq_true fun heq : other = .fails => hlooks (heq ▸ hmem)
    | fails => exact absurd rfl hfirst

theorem Inventory.whole_of_changesFree {i : Inventory} {changed : Value} {invalidated : List Value}
    {device : Device}
    (h : i.changesFree changed invalidated device) : whole (updateDevice changed invalidated) device := by
  refine (device.looks_spec changed invalidated).whole ?_
  unfold changesFree at h
  split at h
  · exact h
  · rename_i hnone
    exact unbroken_of_notMem hnone

theorem Inventory.free_of_changesFree {i : Inventory} {changed : Value} {invalidated : List Value}
    {device updated : Device} (h : i.changesFree changed invalidated device)
    (hupdate : updateDevice changed invalidated device = .ok () updated) : i.free updated := by
  have hnone := (device.looks_spec changed invalidated).succeeds.mpr ⟨updated, hupdate⟩
  obtain ⟨haddress, hadapterPath, hobjectPath⟩ := updateDevice_key hupdate
  rw [changesFree, if_neg hnone] at h
  simpa only [free, deviceIdentity, haddress, hadapterPath, hobjectPath] using h

/-- What the signal does to the maps is announced. -/
def announced (i : Inventory) (signal : Signal) : Bool :=
  match signal.arguments with
  | [.objectPath path, interfaces] =>
    if signal.member = "InterfacesAdded" then i.addsFree path interfaces else true
  | [.string interface, changed, .array _ invalidated] =>
    if signal.member = "PropertiesChanged" then
      if interface = kAdapter then (i.adapters signal.path).all fun adapter =>
        unbroken (adapter.looks changed invalidated)
      else if interface = kDevice then (i.findDeviceByPath signal.path).all (i.changesFree changed invalidated)
      else true
    else true
  | _ => true

theorem Inventory.free_of_addsFree {i : Inventory} {path : String} {interfaces : Value}
    (h : i.addsFree path interfaces)
    {added : Inventory} {properties : Value} {device : Device}
    (hadded : i.withAdapter path interfaces = .ok added)
    (hfound : findInterface interfaces kDevice = .ok (some properties))
    (hparsed : parseDevice path properties = .ok device) :
    added.free device := by
  simp only [addsFree, hadded, hfound, hparsed] at h
  exact h

namespace Mirrored

variable {c : Consumer} {a : Applied}

theorem propertiesChanged {path : String} {interface changed invalidated : Value} {values : List Value}
    {name : String}
    (h : Mirrored c a) (hinterface : interface = .string name) (hvalues : invalidated.asArray = .ok values)
    (hadapter : name = kAdapter → (a.inventory.adapters path).all fun adapter =>
    unbroken (adapter.looks changed values))
    (hdevice : name = kDevice → (a.inventory.findDeviceByPath path).all
    (a.inventory.changesFree changed values)) :
    Mirrored c (final (propertiesChanged path interface changed invalidated) a) := by
  subst hinterface
  unfold Bluez.propertiesChanged
  refine final_reads_bind (x := .ok name) h fun _ heq => ?_
  obtain rfl := Except.ok.inj heq
  rw [hvalues]
  refine final_reads_bind (x := .ok values) h fun _ heq => ?_
  obtain rfl := Except.ok.inj heq
  split
  · rename_i hname
    exact h.changeAdapter fun adapter hfound =>
      (adapter.looks_spec changed values).whole ((Option.all_eq_true _ _).mp (hadapter hname) adapter hfound)
  · split
    · rename_i hname
      have hall := (Option.all_eq_true _ _).mp (hdevice hname)
      exact h.changeDevice (fun device hfound => Inventory.whole_of_changesFree (hall device hfound))
        fun device updated hfound hupdate => Inventory.free_of_changesFree (hall device hfound) hupdate
    · exact h

theorem applyMember {signal : Signal} (h : Mirrored c a) (hannounced : announced a.inventory signal) :
    Mirrored c (final (applyMember signal) a) := by
  unfold Bluez.applyMember
  unfold announced at hannounced
  split
  · rename_i first second third harguments
    rw [harguments] at hannounced
    split
    · exact nameOwnerChanged first second third a h
    · split
      · rename_i hmember
        cases first with
        | string name =>
          cases third with
          | array signature values =>
            simp only [hmember, if_true] at hannounced
            refine h.propertiesChanged rfl rfl (fun hname => ?_) fun hname => ?_
            · rw [if_pos hname] at hannounced
              exact hannounced
            · rw [if_neg (by rw [hname]; decide), if_pos hname] at hannounced
              exact hannounced
          | _ => exact final_reads_bind h fun _ _ => final_reads_bind h nofun
        | _ => exact final_reads_bind h nofun
      · exact h
  · rename_i first second harguments
    rw [harguments] at hannounced
    split
    · rename_i hmember
      cases first with
      | objectPath path =>
        simp only [hmember, if_true] at hannounced
        exact h.interfacesAdded fun _ _ _ => Inventory.free_of_addsFree hannounced
      | _ => exact final_reads_bind h nofun
    · split
      · unfold interfacesRemoved
        refine Keeps.reads (fun path => Keeps.reads fun interfaces => ?_) a h
        exact removeInterfaces path interfaces
      · exact h
  · exact h

theorem applySignal {signal : Signal} (h : Mirrored c a) (hannounced : announced a.inventory signal) :
    Mirrored c (applySignal signal a) := by
  have hmember := h.applyMember hannounced
  unfold final at hmember
  unfold Bluez.applySignal
  cases happly : Bluez.applyMember signal a with
  | ok _ b =>
    rw [happly] at hmember
    exact hmember
  | error error b =>
    rw [happly] at hmember
    exact hmember.announce hmember.inverse hmember.own rfl

end Mirrored

-- ---------------------------------------------------------------------------
-- Runs
-- ---------------------------------------------------------------------------

/-- Outside a snapshot. -/
structure Followed where
  consumer : Consumer
  inventory : Inventory

/-- The client applies a signal, and the consumer the events. -/
def follow (s : Followed) (signal : Signal) : Option Followed :=
  let a := applySignal signal ⟨s.inventory, []⟩
  some ⟨s.consumer.applyAll a.events, a.inventory⟩

def Followed.Announced (s : Followed) (signal : Signal) : Prop := announced s.inventory signal

instance (s : Followed) (signal : Signal) : Decidable (s.Announced signal) :=
  inferInstanceAs (Decidable (announced s.inventory signal = true))

theorem Inventory.Inverse.mirrors_iff {c : Consumer} {i : Inventory} (h : i.Inverse) :
    c.Mirrors i ↔ c = i.shown := by
  constructor
  · intro hmirrors
    have hdevices : c.devices = i.findDeviceByPath := funext fun path => Option.ext fun device =>
      (hmirrors.devices path device).trans h.find_eq.symm
    rw [shown, ← hmirrors.adapters, ← hdevices]
  · rintro rfl
    exact ⟨rfl, fun path device => h.find_eq⟩

theorem Client.finish_sane {c : Client} {droppedBefore droppedAfter : Nat} {objects : Value}
    {inventory : Inventory}
    (h : (c.finish droppedBefore droppedAfter objects).2 = .ok inventory) : inventory.Inverse ∧
    inventory.Own := by
  unfold Client.finish at h
  split at h
  · cases h
  · split at h
    · cases h
    · split at h
      · cases h
      · rename_i hreload
        split at h
        · cases h
        · obtain rfl := Except.ok.inj h
          obtain ⟨hinverse, hown⟩ := reload_sane hreload
          exact ⟨hinverse.congr rfl rfl, hown.congr rfl⟩

/-- The consumer starts from what a successful snapshot has returned. -/
theorem events_mirror {c : Client} {droppedBefore droppedAfter : Nat} {objects : Value} {inventory : Inventory}
    {consumer : Consumer} {t : Followed} (hsnapshot : (c.finish droppedBefore droppedAfter objects).2 =
    .ok inventory)
    (hstart : consumer.Mirrors inventory) (h : ReachesBy follow Followed.Announced ⟨consumer, inventory⟩ t) :
    t.consumer.Mirrors t.inventory := by
  obtain ⟨hinverse, hown⟩ := Client.finish_sane hsnapshot
  have hmirrored : Mirrored t.consumer ⟨t.inventory, []⟩ :=
    h.invariant (I := fun s : Followed => Mirrored s.consumer ⟨s.inventory, []⟩)
      ⟨hinverse, hown, hinverse.mirrors_iff.mp hstart⟩ fun hold hannounced hs => by
        obtain rfl := Option.some.inj hs
        have happlied := hold.applySignal hannounced
        exact ⟨happlied.inverse, happlied.own, happlied.shown⟩
  exact hmirrored.inverse.mirrors_iff.mpr hmirrored.shown

/-- The adapter's address is changed, and then the list of the invalidated properties is not one of names. -/
def changesHalf : Signal :=
  ⟨"PropertiesChanged", Client.adapterPath,
    [.string kAdapter, Client.addressed "B", .array "i" [.plain .int32]]⟩

def addsAdapter : Signal := Client.interfaceAdded Client.adapterPath kAdapter (Client.addressed "A")

def addsDevice : Signal := Client.interfaceAdded Client.devicePath kDevice (Client.addressed "D")

/-- The message changes nothing: the list is read first. -/
def changesNothing : Signal :=
  ⟨"PropertiesChanged", Client.devicePath, [.string kDevice, .dictionary "s" "v" [],
    .array "i" [.plain .int32]]⟩

/-- What an empty reply makes of the inventory. -/
def nothing : Inventory := { available := true }

theorem nothing_returned : (({} : Client).finish 0 0 (.dictionary "o" "a{sa{sv}}" [])).2 = .ok nothing := rfl

theorem nothing_mirrored : ({} : Consumer).Mirrors nothing :=
    ⟨rfl, fun _ _ => iff_of_false nofun fun ⟨_, _, h⟩ => nomatch h⟩

theorem events_mirror_added :
    ∃ t : Followed, (t.consumer.devices Client.devicePath).isSome ∧ t.consumer.Mirrors t.inventory := by
  have h : ReachesBy follow Followed.Announced ⟨{}, nothing⟩ _ :=
    .of_isSome_by [addsAdapter, addsDevice, changesNothing] (by decide +kernel)
  exact ⟨_, by decide +kernel, events_mirror (c := {}) nothing_returned nothing_mirrored h⟩

/-- No two devices have the same identity. -/
def Inventory.Distinct (i : Inventory) : Prop :=
  ∀ identity identity' device device', i.devices identity = some device → i.devices identity' = some device' →
    i.deviceIdentity device = i.deviceIdentity device' → device.objectPath = device'.objectPath

theorem Inventory.distinct_of_none {i : Inventory} (h : i.devices = fun _ => none) : i.Distinct := by
  intro identity identity' device device' hdevice
  rw [h] at hdevice
  cases hdevice

def followed (signals : List Signal) : Followed := (exec follow ⟨{}, nothing⟩ signals).getD ⟨{}, nothing⟩

/-- The address of the device's adapter is another one when the device of another adapter gets its old one. -/
def addsTwin : List Signal :=
  [addsAdapter, addsDevice, ⟨"PropertiesChanged", Client.adapterPath, [.string kAdapter,
    Client.addressed "B", .array "s" []]⟩,
    Client.interfaceAdded "/org/bluez/hci1" kAdapter (Client.addressed "A"),
    Client.interfaceAdded "/org/bluez/hci1/dev_1" kDevice (Client.addressed "D")]

example : ((followed addsTwin).consumer.devices Client.devicePath).isSome ∧
    ((followed addsTwin).inventory.findDeviceByPath Client.devicePath).isNone := by decide +kernel

theorem followed_devices : (followed [addsAdapter]).inventory.devices = fun _ => none := rfl

theorem followed_devices' : (followed [addsAdapter, changesHalf]).inventory.devices = fun _ => none := rfl

theorem events_miss : ¬ ∀ t : Followed, ReachesBy follow (fun s _ => s.inventory.Distinct) ⟨{}, nothing⟩ t →
    t.inventory.Distinct → t.consumer.Mirrors t.inventory := by
  intro h
  have hadded : ReachesBy follow (fun s _ => s.inventory.Distinct) ⟨{}, nothing⟩ (followed [addsAdapter]) :=
    .tail addsAdapter .refl (Inventory.distinct_of_none rfl) rfl
  have hchanged : ReachesBy follow (fun s _ => s.inventory.Distinct) ⟨{}, nothing⟩ (followed [addsAdapter,
    changesHalf]) :=
    .tail changesHalf hadded (Inventory.distinct_of_none followed_devices) rfl
  have hadapters := (h _ hchanged (Inventory.distinct_of_none followed_devices')).adapters
  have haddress := congrArg (fun adapters => (adapters Client.adapterPath).map Adapter.address) hadapters
  revert haddress
  decide +kernel

end Dmn.Bluez
