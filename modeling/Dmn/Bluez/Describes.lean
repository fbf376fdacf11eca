import Dmn.Bluez.Objects

/-!
# The inventory describes the objects

What a well-formed signal says of the objects is what `applySignal` makes of
the inventory, where a device is stored under a key that no other one has; and
so for the reply to `GetManagedObjects`.
-/

namespace Dmn.Bluez

open Dmn.Lib

/-- What BlueZ does not know is left out. -/
def Device.unseen (device : Device) : Device := { device with seenDuringDiscovery := false }

/-- The adapters and the devices under their object paths. -/
def Inventory.plain (i : Inventory) : Objects :=
    ⟨i.adapters, fun path => (i.findDeviceByPath path).map Device.unseen⟩

namespace Inventory

variable {i j : Inventory}

theorem plain_update {device : Device} {path : String} (hadapters : j.adapters = i.adapters)
    (hdevices : j.findDeviceByPath = Function.update i.findDeviceByPath path (some device)) :
    j.plain = { i.plain with devices := Function.update i.plain.devices path (some device.unseen) } := by
  rw [plain, hadapters, hdevices]
  congr 1
  funext other
  show Option.map Device.unseen (Function.update i.findDeviceByPath path (some device) other) =
    Function.update (fun path => (i.findDeviceByPath path).map Device.unseen) path (some device.unseen) other
  rw [Function.update_apply, Function.update_apply]
  split <;> rfl

theorem plain_remove {path : String} (hadapters : j.adapters = i.adapters)
    (hdevices : j.findDeviceByPath = Function.update i.findDeviceByPath path none) :
    j.plain = { i.plain with devices := Function.update i.plain.devices path none } := by
  rw [plain, hadapters, hdevices]
  congr 1
  funext other
  show Option.map Device.unseen (Function.update i.findDeviceByPath path none other) =
    Function.update (fun path => (i.findDeviceByPath path).map Device.unseen) path none other
  rw [Function.update_apply, Function.update_apply]
  split <;> rfl

theorem storedDevice_unseen (i : Inventory) (device : Device) : (i.storedDevice device).unseen =
    device.unseen := by
  unfold storedDevice
  split <;> rfl

/-- The maps, and that every adapter is under its path. -/
def Sane (i : Inventory) : Prop := i.Inverse ∧ i.Own

theorem plain_storeDevice {device : Device} (h : i.Inverse) (hfree : i.free device) :
    (i.storeDevice device).1.plain =
      { i.plain with devices := Function.update i.plain.devices device.objectPath (some device.unseen) } := by
  rw [plain_update (storeDevice_adapters i device) (h.find_storeDevice hfree), storedDevice_unseen]

end Inventory

theorem parseDevice_unseen {path : String} {properties : Value} {device : Device}
    (h : parseDevice path properties = .ok device) : device.unseen = device := by
  unfold parseDevice at h
  obtain ⟨_, -, h⟩ := except_bind_eq_ok h
  obtain ⟨_, -, h⟩ := except_bind_eq_ok h
  obtain ⟨_, -, h⟩ := except_bind_eq_ok h
  obtain ⟨_, -, h⟩ := except_bind_eq_ok h
  obtain ⟨_, -, h⟩ := except_bind_eq_ok h
  obtain ⟨_, -, h⟩ := except_bind_eq_ok h
  obtain ⟨_, -, h⟩ := except_bind_eq_ok h
  exact Except.ok.inj h ▸ rfl

theorem addDevice_plain {a : Applied} {path : String} {properties : Value} {device : Device}
    (h : a.inventory.Inverse)
    (hparsed : parseDevice path properties = .ok device) (hfree : a.inventory.free device) :
    (final (addDevice path properties) a).inventory.plain =
      { a.inventory.plain with devices := put a.inventory.plain.devices path (some device) } := by
  unfold addDevice
  rw [hparsed]
  change (final (_ >>= _) a).inventory.plain = _
  rw [show reads (.ok device : Except String Device) = (pure device : Applying Device) from rfl,
    final_pure_bind,
    final_get_bind]
  dsimp only
  rw [final_alter_bind]
  have hseenFree : a.inventory.free { device with seenDuringDiscovery := a.inventory.discovering device } :=
    hfree
  have hstored := Inventory.plain_storeDevice h hseenFree
  have hpath : device.objectPath = path := parseDevice_objectPath hparsed
  have hunseen : Device.unseen { device with seenDuringDiscovery := a.inventory.discovering device } = device :=
    parseDevice_unseen hparsed
  rw [hunseen] at hstored
  subst hpath
  split <;> exact hstored

theorem addAdapter_ok {a : Applied} {path : String} {properties : Value} {adapter : Adapter}
    (hparsed : parseAdapter path properties = .ok adapter) :
    addAdapter path properties a =
      .ok () ⟨{ a.inventory with adapters := Function.update a.inventory.adapters path (some adapter) },
        a.events ++ [.adapterAdded adapter]⟩ := by
  unfold addAdapter
  rw [hparsed]
  rfl

theorem interfacesAdded_plain {a : Applied} {path : String} {interfaces : Value} (h : a.inventory.Inverse)
    (hinterfaces : interfaces.Interfaces) (hfree : a.inventory.addsFree path interfaces) :
    (final (interfacesAdded (.objectPath path) interfaces) a).inventory.plain =
      Objects.add a.inventory.plain (.objectPath path) interfaces := by
  obtain ⟨foundAdapter, hfoundAdapter, hadapterProperties⟩ := findInterface_ok hinterfaces kAdapter
  obtain ⟨foundDevice, hfoundDevice, hdeviceProperties⟩ := findInterface_ok hinterfaces kDevice
  have hdevice {b : Applied} (hb : b.inventory.Inverse) (hi : a.inventory.withAdapter path interfaces =
    .ok b.inventory) :
      (final (interfacesAddedDevice path interfaces) b).inventory.plain =
      { b.inventory.plain with
        devices := put b.inventory.plain.devices path (parsedDevice path interfaces) } := by
    unfold parsedDevice interfacesAddedDevice
    rw [final_reads_ok hfoundDevice, hfoundDevice]
    cases foundDevice with
    | none => rfl
    | some properties =>
      obtain ⟨device, hparsed⟩ := parseDevice_ok (hdeviceProperties properties rfl) path
      have hplain := addDevice_plain hb hparsed (Inventory.free_of_addsFree hfree hi hfoundDevice hparsed)
      dsimp only
      rw [hplain, hparsed]
      rfl
  unfold interfacesAdded Objects.add
  rw [final_reads_ok (show (Value.objectPath path).asObjectPath = .ok path from rfl),
    final_reads_ok hfoundAdapter]
  show _ = ({ adapters := put a.inventory.plain.adapters path (parsedAdapter path interfaces),
              devices := _ } : Objects)
  rw [parsedAdapter, hfoundAdapter]
  cases foundAdapter with
  | none => exact hdevice h (by simp only [Inventory.withAdapter, hfoundAdapter]; rfl)
  | some properties =>
    obtain ⟨adapter, hparsed⟩ := parseAdapter_ok (hadapterProperties properties rfl) path
    dsimp only
    rw [final_bind_ok (addAdapter_ok hparsed), hparsed]
    refine hdevice (h.congr rfl rfl) ?_
    unfold Inventory.withAdapter
    rw [hfoundAdapter]
    show (do
      let adapter ← parseAdapter path properties
      pure { a.inventory with adapters := Function.update a.inventory.adapters path (some adapter) }) =
        Except.ok _
    rw [hparsed]
    rfl

theorem removeAdapter_plain {a : Applied} (h : a.inventory.Sane) (path : String) :
    ∃ b, removeAdapter path a = .ok () b ∧ b.inventory.Sane ∧
      b.inventory.plain =
        { a.inventory.plain with adapters := Function.update a.inventory.plain.adapters path none } := by
  cases hadapter : a.inventory.adapters path with
  | none =>
    refine ⟨a, ?_, h, ?_⟩
    · dsimp only [removeAdapter, bind, EStateM.bind, get, getThe, MonadStateOf.get, EStateM.get]
      rw [hadapter]
      rfl
    · have hsame : Function.update a.inventory.plain.adapters path none = a.inventory.plain.adapters := by
        rw [show (none : Option Adapter) = a.inventory.plain.adapters path from hadapter.symm,
          Function.update_eq_self]
      rw [hsame]
  | some adapter =>
    refine ⟨⟨{ a.inventory with adapters := Function.update a.inventory.adapters path none },
      a.events ++ [.adapterRemoved adapter]⟩, ?_, ⟨h.1.congr rfl rfl, h.2.remove path⟩, rfl⟩
    dsimp only [removeAdapter, bind, EStateM.bind, get, getThe, MonadStateOf.get, EStateM.get]
    rw [hadapter]
    rfl

theorem removeDevice_plain {a : Applied} (h : a.inventory.Sane) (path : String) :
    ∃ b, removeDevice path a = .ok () b ∧ b.inventory.Sane ∧
      b.inventory.plain =
        { a.inventory.plain with devices := Function.update a.inventory.plain.devices path none } := by
  cases hpath : a.inventory.devicePaths path with
  | none =>
    refine ⟨a, ?_, h, ?_⟩
    · dsimp only [removeDevice, bind, EStateM.bind, get, getThe, MonadStateOf.get, EStateM.get]
      rw [hpath]
      rfl
    · have hnone : a.inventory.plain.devices path = none := by
        show Option.map Device.unseen (a.inventory.findDeviceByPath path) = none
        rw [Inventory.findDeviceByPath, hpath]
        rfl
      have hsame : Function.update a.inventory.plain.devices path none = a.inventory.plain.devices := by
        rw [← hnone, Function.update_eq_self]
      rw [hsame]
  | some identity =>
    obtain ⟨device, hdevice, -⟩ := h.1.path path identity hpath
    refine ⟨⟨(a.inventory.setDevice identity none).setPath path none, a.events ++ [.deviceRemoved device]⟩, ?_,
      ⟨h.1.remove hpath, h.2.congr rfl⟩, Inventory.plain_remove rfl (h.1.find_removed hpath)⟩
    dsimp only [removeDevice, bind, EStateM.bind, get, getThe, MonadStateOf.get, EStateM.get]
    rw [hpath]
    dsimp only
    rw [hdevice]
    rfl

theorem removeInterfaces_plain {path : String} {values : List Value}
    (hvalues : ∀ value ∈ values, value.IsString) {a : Applied}
    (h : a.inventory.Sane) :
    (final (removeInterfaces path values) a).inventory.plain = values.foldl (Objects.removeOne path)
    a.inventory.plain := by
  induction values generalizing a with
  | nil => rfl
  | cons value values ih =>
    obtain ⟨name, rfl⟩ := hvalues value List.mem_cons_self
    have hrest := fun other hother => hvalues other (List.mem_cons_of_mem _ hother)
    unfold removeInterfaces
    rw [final_reads_ok (show (Value.string name).asString = .ok name from rfl), List.foldl_cons,
      Objects.removeOne]
    split
    · rename_i hname
      obtain ⟨b, hb, hsane, hplain⟩ := removeAdapter_plain h path
      rw [final_bind_ok hb, ih hrest hsane, hplain, if_pos (show (Value.string name).text =
        kAdapter from hname)]
    · rename_i hne
      rw [if_neg (show (Value.string name).text ≠ kAdapter from hne)]
      split
      · rename_i hname
        obtain ⟨b, hb, hsane, hplain⟩ := removeDevice_plain h path
        rw [final_bind_ok hb, ih hrest hsane, hplain, if_pos (show (Value.string name).text =
          kDevice from hname)]
      · rename_i hne'
        rw [if_neg (show (Value.string name).text ≠ kDevice from hne')]
        exact ih hrest h

theorem Inventory.storeDevice_found (i : Inventory) (device : Device) :
    (i.storeDevice device).1.findDeviceByPath device.objectPath = some (i.storedDevice device) := by
  rw [findDeviceByPath, storeDevice_devicePaths, if_pos rfl]
  show (i.storeDevice device).1.devices _ = _
  rw [storeDevice_devices, if_pos rfl]

/-- The device is found again after it has got a new key. -/
theorem Inventory.rekey_found {i : Inventory} {device : Device} {identity : DeviceIdentity} (h : i.Inverse)
    (hpath : i.devicePaths device.objectPath = some identity) :
    ∃ stored, (rekey identity device i).findDeviceByPath device.objectPath = some stored ∧
      stored.unseen = device.unseen := by
  have hset := h.find_setDevice hpath
  unfold Bluez.rekey
  dsimp only
  split
  · exact ⟨device, by rw [hset, Function.update_self], rfl⟩
  · exact ⟨_, storeDevice_found _ device, storedDevice_unseen _ device⟩

theorem changeAdapter_plain {a : Applied} {path : String} {changed : Value} {values : List Value}
    (hchanged : changed.Properties)
    (hvalues : ∀ value ∈ values, value.IsString) :
    (final (changeAdapter path changed values) a).inventory.plain =
      { a.inventory.plain with
        adapters := Function.update a.inventory.plain.adapters path
          ((a.inventory.plain.adapters path).map (final (updateAdapter changed values))) } := by
  obtain ⟨e, he⟩ := updateAdapter_ok hchanged hvalues
  unfold changeAdapter
  rw [final_get_bind]
  show _ = Consumer.mk (Function.update a.inventory.adapters path
    ((a.inventory.adapters path).map (final (updateAdapter changed values)))) _
  split
  · rename_i hnone
    have hsame : Function.update a.inventory.adapters path none = a.inventory.adapters := by
      rw [← hnone, Function.update_eq_self]
    rw [hnone, Option.map_none, hsame]
    rfl
  · rename_i adapter hadapter
    have hedit : final (updateAdapter changed values) adapter = e.apply adapter := by rw [final, he]
    rw [hadapter, Option.map_some, hedit, he adapter]
    rfl

theorem changeDevice_plain {a : Applied} {path : String} {changed : Value} {values : List Value}
    (h : a.inventory.Inverse)
    (hchanged : changed.Properties) (hvalues : ∀ value ∈ values, value.IsString)
    (hfree : (a.inventory.findDeviceByPath path).all (a.inventory.changesFree changed values)) :
    (final (changeDevice path changed values) a).inventory.plain =
      { a.inventory.plain with
        devices := Function.update a.inventory.plain.devices path
          ((a.inventory.plain.devices path).map (final (updateDevice changed values))) } := by
  obtain ⟨e, he⟩ := updateDevice_ok hchanged hvalues
  unfold changeDevice
  rw [final_get_bind]
  dsimp only
  split
  · rename_i hnone
    have hdevice : a.inventory.plain.devices path = none := by
      show Option.map Device.unseen (a.inventory.findDeviceByPath path) = none
      rw [Inventory.findDeviceByPath, hnone]
      rfl
    have hsame : Function.update a.inventory.plain.devices path none = a.inventory.plain.devices := by
      rw [← hdevice, Function.update_eq_self]
    rw [hdevice, Option.map_none, hsame]
    rfl
  · rename_i identity hidentity
    obtain ⟨device, hdevice, rfl⟩ := h.path path identity hidentity
    have hfound : a.inventory.findDeviceByPath device.objectPath = some device := by
      rw [Inventory.findDeviceByPath, hidentity]
      exact hdevice
    have hupdated : (e.apply device).objectPath = device.objectPath := rfl
    have hdeviceFree : a.inventory.free (e.apply device) :=
      Inventory.free_of_changesFree ((Option.all_eq_true _ _).mp hfree device hfound) (he device)
    have hidentity' : a.inventory.devicePaths (e.apply device).objectPath = some identity := hidentity
    have hrekey := h.rekey hidentity'
    obtain ⟨stored, hstored, hunseen⟩ := Inventory.rekey_found h hidentity'
    have hplainDevice : a.inventory.plain.devices device.objectPath = some device.unseen := by
      show Option.map Device.unseen (a.inventory.findDeviceByPath device.objectPath) = _
      rw [hfound]
      rfl
    rw [hdevice, hplainDevice]
    dsimp only
    rw [he device]
    dsimp only
    rw [final_alter_bind, final_get_bind]
    dsimp only
    obtain ⟨identity', hpath', hstored'⟩ := Option.bind_eq_some_iff.mp hstored
    change (rekey identity (e.apply device) a.inventory).devicePaths device.objectPath =
      some identity' at hpath'
    rw [hpath']
    dsimp only
    rw [hstored']
    have hdone (seen : Bool) : ((rekey identity (e.apply device) a.inventory).setDevice identity'
          (some { stored with seenDuringDiscovery := seen })).plain =
        { a.inventory.plain with
          devices := Function.update a.inventory.plain.devices device.objectPath
            (some (final (updateDevice changed values) device.unseen)) } := by
      have hstoredPath : stored.objectPath = device.objectPath := (hrekey.find_eq.mp hstored).1
      have hset : (rekey identity (e.apply device) a.inventory).devicePaths
          ({ stored with seenDuringDiscovery := seen } : Device).objectPath = some identity' :=
            hstoredPath ▸ hpath'
      have hfind : ((rekey identity (e.apply device) a.inventory).setDevice identity'
            (some { stored with seenDuringDiscovery := seen })).findDeviceByPath =
          Function.update a.inventory.findDeviceByPath device.objectPath
            (some { stored with seenDuringDiscovery := seen }) := by
        rw [hrekey.find_setDevice hset]
        show Function.update _ stored.objectPath _ = _
        rw [hstoredPath]
        funext other
        rw [Function.update_apply, Function.update_apply]
        split
        · rfl
        · rename_i hother
          exact h.find_rekey hidentity' hdeviceFree hother
      have hadapters : ((rekey identity (e.apply device) a.inventory).setDevice identity'
          (some { stored with seenDuringDiscovery := seen })).adapters = a.inventory.adapters :=
        Inventory.rekey_adapters _ _ _
      rw [Inventory.plain_update hadapters hfind]
      have hvalue : ({ stored with seenDuringDiscovery := seen } : Device).unseen =
          final (updateDevice changed values) device.unseen := by
        rw [final, he]
        exact hunseen
      rw [hvalue]
    dsimp only
    split
    · obtain ⟨rssi, hrssi⟩ := updateDevice_rssi (he device)
      rw [final_reads_ok hrssi]
      exact hdone _
    · exact hdone _

/-- A well-formed signal changes the inventory as it changes the objects. -/
theorem applySignal_plain {signal : Signal} (hsignal : WellFormed signal) {i : Inventory} (h : i.Sane)
    (hannounced : announced i signal) : (applySignal signal ⟨i, []⟩).inventory.plain =
    Objects.effect i.plain signal := by
  rw [applySignal_inventory]
  cases hsignal with
  | nameOwnerChanged path name oldOwner newOwner =>
    show (final (nameOwnerChanged (.string name) (.string oldOwner) (.string newOwner)) ⟨i,
      []⟩).inventory.plain =
      if name = kBluez ∧ oldOwner ≠ "" then ({} : Objects) else i.plain
    unfold nameOwnerChanged
    rw [final_reads_ok (show (Value.string name).asString = .ok name from rfl)]
    by_cases hname : name = kBluez
    · rw [if_pos hname, final_reads_ok (show (Value.string oldOwner).asString = .ok oldOwner from rfl),
        final_reads_ok (show (Value.string newOwner).asString = .ok newOwner from rfl)]
      by_cases hold : oldOwner = ""
      · have hkept : (if name = kBluez ∧ oldOwner ≠ "" then ({} : Objects) else i.plain) = i.plain :=
          if_neg fun hboth => hboth.2 hold
        rw [hkept]
        dsimp only
        rw [if_neg (not_not.mpr hold)]
        split <;> rfl
      · have hlost : (if name = kBluez ∧ oldOwner ≠ "" then ({} : Objects) else i.plain) = {} :=
          if_pos ⟨hname, hold⟩
        rw [hlost]
        dsimp only
        rw [if_pos hold, final_alter_bind, final_push_bind]
        split <;> rfl
    · have hkept : (if name = kBluez ∧ oldOwner ≠ "" then ({} : Objects) else i.plain) = i.plain :=
        if_neg fun hboth => hname hboth.1
      rw [hkept, if_neg hname]
      rfl
  | interfacesAdded sender path hinterfaces => exact interfacesAdded_plain h.1 hinterfaces hannounced
  | interfacesRemoved sender path hnames =>
    obtain ⟨values, rfl, hvalues⟩ := hnames
    show (final (interfacesRemoved (.objectPath path) (.array "s" values)) ⟨i, []⟩).inventory.plain =
      values.foldl (Objects.removeOne path) i.plain
    unfold interfacesRemoved
    rw [final_reads_ok (show (Value.objectPath path).asObjectPath = .ok path from rfl),
      final_reads_ok (show (Value.array "s" values).asArray = .ok values from rfl)]
    exact removeInterfaces_plain hvalues h
  | propertiesChanged path interface hchanged hinvalidated =>
    rename_i changed invalidated
    obtain ⟨values, rfl, hvalues⟩ := hinvalidated
    show (final (propertiesChanged path (.string interface) changed (.array "s" values)) ⟨i,
      []⟩).inventory.plain =
      Objects.change i.plain path (.string interface) changed (.array "s" values)
    unfold propertiesChanged Objects.change
    rw [final_reads_ok (show (Value.string interface).asString = .ok interface from rfl),
      final_reads_ok (show (Value.array "s" values).asArray = .ok values from rfl)]
    by_cases hadapter : interface = kAdapter
    · rw [if_pos hadapter, if_pos (show (Value.string interface).text = kAdapter from hadapter)]
      exact changeAdapter_plain hchanged hvalues
    · rw [if_neg hadapter, if_neg (show (Value.string interface).text ≠ kAdapter from hadapter)]
      by_cases hdevice : interface = kDevice
      · rw [if_pos hdevice, if_pos (show (Value.string interface).text = kDevice from hdevice)]
        refine changeDevice_plain h.1 hchanged hvalues ?_
        simp only [announced, if_neg hadapter, if_pos hdevice, if_true] at hannounced
        exact hannounced
      · rw [if_neg hdevice, if_neg (show (Value.string interface).text ≠ kDevice from hdevice)]
        rfl

-- ---------------------------------------------------------------------------
-- The reply
-- ---------------------------------------------------------------------------

/-- What the entries of a reply say of the objects. -/
def described (objects : List (Value × Value)) : Objects := objects.foldl
    (fun w object => Objects.add w object.1 object.2) {}

theorem parsedAdapter_eq {path : String} {interfaces : Value} {found : Option Value}
    (hfound : findInterface interfaces kAdapter = .ok found) :
    parsedAdapter path interfaces = found.bind fun properties => (parseAdapter path properties).toOption := by
  unfold parsedAdapter
  rw [hfound]
  cases found <;> rfl

theorem parsedDevice_eq {path : String} {interfaces : Value} {found : Option Value}
    (hfound : findInterface interfaces kDevice = .ok found) :
    parsedDevice path interfaces = found.bind fun properties => (parseDevice path properties).toOption := by
  unfold parsedDevice
  rw [hfound]
  cases found <;> rfl

theorem asObjectPath_eq {v : Value} {path : String} (h : v.asObjectPath = .ok path) : v = .objectPath path := by
  cases v <;> first | cases h; rfl | cases h

theorem loadAdapters_plain {objects : List (Value × Value)} {i j : Inventory} {w : Objects}
    (hw : w.adapters = i.adapters)
    (h : loadAdapters objects i = .ok () j) :
    j.adapters = (objects.foldl (fun w object => Objects.add w object.1 object.2) w).adapters ∧
      j.devices = i.devices ∧
      j.devicePaths = i.devicePaths := by
  induction objects generalizing i w with
  | nil =>
    obtain ⟨-, rfl⟩ := EStateM.Result.ok.inj h
    exact ⟨hw.symm, rfl, rfl⟩
  | cons object objects ih =>
    obtain ⟨key, interfaces⟩ := object
    unfold loadAdapters at h
    obtain ⟨path, hpath, hrest⟩ := reads_bind_eq_ok h
    clear h
    obtain rfl := asObjectPath_eq hpath
    obtain ⟨found, hfound, h⟩ := reads_bind_eq_ok hrest
    rw [List.foldl_cons]
    have hadd : (Objects.add w (.objectPath path) interfaces).adapters = put w.adapters path
      (parsedAdapter path interfaces) := rfl
    rw [parsedAdapter_eq hfound] at hadd
    cases found with
    | none => exact ih (hadd.trans hw) h
    | some properties =>
      obtain ⟨adapter, hadapter, h⟩ := reads_bind_eq_ok h
      obtain ⟨_, k, hmodify, h⟩ := bind_eq_ok h
      obtain ⟨-, rfl⟩ := EStateM.Result.ok.inj hmodify
      have hothers :
        loadAdapters objects { i with adapters := Function.update i.adapters path (some adapter) } =
        .ok () j := h
      have hcell : (Objects.add w (.objectPath path) interfaces).adapters =
        Function.update i.adapters path (some adapter) := by
        rw [hadd, hw]
        show put i.adapters path (parseAdapter path properties).toOption = Function.update i.adapters
          path (some adapter)
        rw [hadapter]
        rfl
      exact ih (i := { i with adapters := Function.update i.adapters path (some adapter) }) hcell hothers

/-- Every device of the reply is stored under a key that no other one has. -/
def loadsFree (previousDevices : DeviceIdentity → Option Device) : List (Value × Value) → Inventory → Bool
  | [], _ => true
  | (path, interfaces) :: objects, i =>
    match parsedDevice path.path interfaces with
    | none => loadsFree previousDevices objects i
    | some parsed =>
      let prior := previousDevices (i.deviceIdentity parsed)
      i.free parsed &&
        loadsFree previousDevices objects (i.storeDevice
          { parsed with seenDuringDiscovery := prior.any (·.seenDuringDiscovery) }).1

theorem loadDevices_plain {previousDevices : DeviceIdentity → Option Device} {objects : List (Value × Value)}
    {i j : Inventory} {w : Objects} (hi : i.Inverse) (hw : w.devices = i.plain.devices)
    (hfree : loadsFree previousDevices objects i) (h : loadDevices previousDevices objects i = .ok () j) :
    j.plain.devices = (objects.foldl (fun w object => Objects.add w object.1 object.2) w).devices ∧
      j.adapters = i.adapters := by
  induction objects generalizing i w with
  | nil =>
    obtain ⟨-, rfl⟩ := EStateM.Result.ok.inj h
    exact ⟨hw.symm, rfl⟩
  | cons object objects ih =>
    obtain ⟨key, interfaces⟩ := object
    unfold loadDevices at h
    obtain ⟨path, hpath, hrest⟩ := reads_bind_eq_ok h
    clear h
    obtain rfl := asObjectPath_eq hpath
    obtain ⟨found, hfound, h⟩ := reads_bind_eq_ok hrest
    rw [List.foldl_cons]
    have hadd : (Objects.add w (.objectPath path) interfaces).devices = put w.devices path
      (parsedDevice path interfaces) := rfl
    have hparsed : parsedDevice path interfaces = found.bind fun properties =>
      (parseDevice path properties).toOption :=
      parsedDevice_eq hfound
    rw [hparsed] at hadd
    unfold loadsFree at hfree
    change (match parsedDevice path interfaces with | none => _ | some parsed => _) = true at hfree
    rw [hparsed] at hfree
    cases found with
    | none => exact ih hi (hadd.trans hw) hfree h
    | some properties =>
      obtain ⟨device, hdevice, h⟩ := reads_bind_eq_ok h
      obtain ⟨_, k, hmodify, hloaded⟩ := bind_eq_ok h
      obtain ⟨-, rfl⟩ := EStateM.Result.ok.inj hmodify
      rw [Option.bind_some, hdevice] at hfree hadd
      dsimp only [Except.toOption] at hfree hadd
      rw [Bool.and_eq_true] at hfree
      obtain ⟨hdeviceFree, hothers⟩ := hfree
      have hseenFree : i.free { device with
          seenDuringDiscovery := (previousDevices (i.deviceIdentity device)).any (·.seenDuringDiscovery) } :=
            hdeviceFree
      have hstored := Inventory.plain_storeDevice hi hseenFree
      have hpath : device.objectPath = path := parseDevice_objectPath hdevice
      have hunseen : Device.unseen { device with
          seenDuringDiscovery := (previousDevices (i.deviceIdentity device)).any (·.seenDuringDiscovery) } =
            device :=
        parseDevice_unseen hdevice
      rw [hunseen] at hstored
      subst hpath
      have hcell : (Objects.add w (.objectPath device.objectPath) interfaces).devices =
          (i.storeDevice { device with
            seenDuringDiscovery := (previousDevices (i.deviceIdentity device)).any
              (·.seenDuringDiscovery) }).1.plain.devices := by
        rw [hadd, hw, hstored]
        rfl
      obtain ⟨hdevices, hadapters⟩ := ih (hi.storeDevice _) hcell hothers hloaded
      exact ⟨hdevices, hadapters.trans (Inventory.storeDevice_adapters _ _)⟩

/-- The signals are announced, one after the other. -/
def allAnnounced : List Signal → Inventory → Bool
  | [], _ => true
  | signal :: signals, i => announced i signal && allAnnounced signals (applySignal signal ⟨i, []⟩).inventory

theorem replay_plain {signals : List Signal} (hsignals : ∀ signal ∈ signals, WellFormed signal)
    {i j : Inventory}
    {ownerLost : Bool} (hi : i.Sane) (hannounced : allAnnounced signals i)
    (h : replay signals i = .ok ownerLost j) :
    j.plain = Objects.effects signals i.plain := by
  induction signals generalizing i ownerLost with
  | nil =>
    obtain ⟨-, rfl⟩ := EStateM.Result.ok.inj h
    rfl
  | cons signal signals ih =>
    unfold replay at h
    obtain ⟨lost, -, h⟩ := reads_bind_eq_ok h
    obtain ⟨_, _, hmodify, h⟩ := bind_eq_ok h
    obtain ⟨-, rfl⟩ := EStateM.Result.ok.inj hmodify
    obtain ⟨later, k, hlater, hpure⟩ := bind_eq_ok h
    obtain ⟨-, rfl⟩ := EStateM.Result.ok.inj hpure
    rw [allAnnounced, Bool.and_eq_true] at hannounced
    have hsignal := hsignals signal List.mem_cons_self
    have happlied := applySignal_plain hsignal hi hannounced.1
    rw [ih (fun other hother => hsignals other (List.mem_cons_of_mem _ hother))
      ⟨hi.1.applySignal signal, hi.2.applySignal signal⟩ hannounced.2 hlater, happlied]
    rfl

/-- Every device that a snapshot stores gets a key that no other one has. -/
def reloadsFree (objects : Value) (staged : List Signal) (i : Inventory) : Bool :=
  match objects with
  | .dictionary _ _ objects =>
    match loadAdapters objects { i.clear with available := i.available } with
    | .ok _ added =>
      loadsFree i.devices objects added &&
        match loadDevices i.devices objects added with
        | .ok _ loaded => allAnnounced staged loaded
        | .error .. => true
    | .error .. => true
  | _ => true

/-- A snapshot that succeeds makes of the inventory what the reply and the staged signals say. -/
theorem reload_plain {keySignature valueSignature : String} {objects : List (Value × Value)}
    {staged : List Signal}
    (hstaged : ∀ signal ∈ staged, WellFormed signal) {i j : Inventory} {ownerLost : Bool}
    (hfree : reloadsFree (.dictionary keySignature valueSignature objects) staged i)
    (h : reload (.dictionary keySignature valueSignature objects) staged i = .ok ownerLost j) :
    j.plain = Objects.effects staged (described objects) := by
  obtain ⟨_, loaded, hload, hreplay⟩ := bind_eq_ok (m :=
    load (.dictionary keySignature valueSignature objects) i.devices) h
  unfold load at hload
  obtain ⟨_, cleared, hclear, hload⟩ := bind_eq_ok hload
  obtain ⟨-, rfl⟩ := EStateM.Result.ok.inj hclear
  obtain ⟨_, hentries, hload⟩ := reads_bind_eq_ok hload
  obtain rfl := Except.ok.inj hentries
  obtain ⟨_, added, hadapters, hdevices⟩ := bind_eq_ok hload
  have hcleared : Inventory.Inverse { i.clear with available := i.available } :=
    (Inventory.Inverse.clear i).congr rfl rfl
  have haddedInverse := loadAdapters_keeps objects _ hcleared
  have haddedOwn := loadAdapters_own objects { i.clear with available := i.available } nofun
  rw [final, hadapters] at haddedInverse haddedOwn
  have hloadedInverse := loadDevices_keeps i.devices objects added haddedInverse
  have hloadedOwn := loadDevices_own i.devices objects added haddedOwn
  rw [final, hdevices] at hloadedInverse hloadedOwn
  unfold reloadsFree at hfree
  dsimp only at hfree
  rw [hadapters] at hfree
  dsimp only at hfree
  rw [hdevices, Bool.and_eq_true] at hfree
  obtain ⟨hadded, haddedDevices, haddedPaths⟩ := loadAdapters_plain (w := {}) rfl hadapters
  have hnone : ({} : Objects).devices = added.plain.devices := funext fun path => by
    show none = Option.map Device.unseen (added.findDeviceByPath path)
    rw [Inventory.findDeviceByPath, haddedPaths]
    rfl
  obtain ⟨hplain, hkept⟩ := loadDevices_plain haddedInverse hnone hfree.1 hdevices
  have hdescribed : loaded.plain = described objects := by
    have hadaptersEq : loaded.plain.adapters = (described objects).adapters := hkept.trans hadded
    cases hleft : loaded.plain with
    | mk adapters devices =>
      cases hright : described objects with
      | mk adapters' devices' =>
        rw [hleft, hright] at hadaptersEq
        rw [hleft] at hplain
        change devices = (described objects).devices at hplain
        rw [hright] at hplain
        exact congrArg₂ Consumer.mk hadaptersEq hplain
  rw [replay_plain hstaged ⟨hloadedInverse, hloadedOwn⟩ hfree.2 hreplay, hdescribed]

end Dmn.Bluez
