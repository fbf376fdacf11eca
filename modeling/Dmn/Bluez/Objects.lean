import Dmn.Bluez.Events
import Dmn.Lib.Settle

/-!
# The objects of BlueZ

What a signal says of the adapters and the devices of BlueZ, and that a
sequence of signals, applied once more to what it has led to, changes nothing.
-/

namespace Dmn.Bluez

open Dmn.Lib

-- ---------------------------------------------------------------------------
-- Well-formed signals
-- ---------------------------------------------------------------------------

namespace Value

def IsString (v : Value) : Prop := ∃ value, v = .string value

/-- It is of type `a{sv}`. -/
def Properties (v : Value) : Prop :=
  ∃ entries, v = .dictionary "s" "v" entries ∧ ∀ entry ∈ entries, entry.1.IsString ∧ ∃ value,
    entry.2 = .variant value

/-- It is of type `a{sa{sv}}`. -/
def Interfaces (v : Value) : Prop :=
  ∃ entries, v = .dictionary "s" "a{sv}" entries ∧ ∀ entry ∈ entries, entry.1.IsString ∧ entry.2.Properties

/-- It is of type `as`. -/
def Names (v : Value) : Prop := ∃ values, v = .array "s" values ∧ ∀ value ∈ values, value.IsString

end Value

inductive WellFormed : Signal → Prop
  | nameOwnerChanged (path name oldOwner newOwner : String) :
    WellFormed ⟨"NameOwnerChanged", path, [.string name, .string oldOwner, .string newOwner]⟩
  | interfacesAdded (sender path : String) {interfaces : Value} (h : interfaces.Interfaces) :
    WellFormed ⟨"InterfacesAdded", sender, [.objectPath path, interfaces]⟩
  | interfacesRemoved (sender path : String) {interfaces : Value} (h : interfaces.Names) :
    WellFormed ⟨"InterfacesRemoved", sender, [.objectPath path, interfaces]⟩
  | propertiesChanged (path interface : String) {changed invalidated : Value} (hchanged : changed.Properties)
      (hinvalidated : invalidated.Names) :
    WellFormed ⟨"PropertiesChanged", path, [.string interface, changed, invalidated]⟩

theorem findEntry_ok {entries : List (Value × Value)} (h : ∀ entry ∈ entries, entry.1.IsString)
    (name : String) :
    ∃ found, findEntry name entries = .ok found ∧ ∀ value, found = some value → ∃ entry ∈ entries,
      entry.2 = value := by
  induction entries with
  | nil => exact ⟨none, rfl, nofun⟩
  | cons entry entries ih =>
    obtain ⟨key, value⟩ := entry
    obtain ⟨text, hkey⟩ := h _ List.mem_cons_self
    obtain rfl : key = .string text := hkey
    by_cases hname : text = name
    · refine ⟨some value, ?_, fun other hother => ⟨_, List.mem_cons_self, Option.some.inj hother⟩⟩
      show (if text = name then Except.ok (some value) else findEntry name entries) = _
      rw [if_pos hname]
    · obtain ⟨found, hfound, hmem⟩ := ih fun entry hentry => h entry (List.mem_cons_of_mem _ hentry)
      refine ⟨found, ?_, fun other hother => ?_⟩
      · show (if text = name then Except.ok (some value) else findEntry name entries) = _
        rw [if_neg hname, hfound]
      · obtain ⟨entry, hentry, heq⟩ := hmem other hother
        exact ⟨entry, List.mem_cons_of_mem _ hentry, heq⟩

theorem property_ok {properties : Value} (h : properties.Properties) (name : String) :
    ∃ found, property properties name = .ok found := by
  obtain ⟨entries, rfl, hentries⟩ := h
  obtain ⟨found, hfound, hmem⟩ := findEntry_ok (fun entry hentry => (hentries entry hentry).1) name
  unfold property
  rw [Value.asDictionary]
  dsimp only [bind, Except.bind]
  rw [hfound]
  cases found with
  | none => exact ⟨none, rfl⟩
  | some value =>
    obtain ⟨entry, hentry, rfl⟩ := hmem value rfl
    obtain ⟨-, inner, hinner⟩ := hentries entry hentry
    dsimp only
    rw [hinner]
    exact ⟨some inner, rfl⟩

theorem findInterface_ok {interfaces : Value} (h : interfaces.Interfaces) (name : String) :
    ∃ found, findInterface interfaces name = .ok found ∧ ∀ properties, found = some properties →
      properties.Properties := by
  obtain ⟨entries, rfl, hentries⟩ := h
  obtain ⟨found, hfound, hmem⟩ := findEntry_ok (fun entry hentry => (hentries entry hentry).1) name
  refine ⟨found, hfound, fun properties heq => ?_⟩
  obtain ⟨entry, hentry, rfl⟩ := hmem properties heq
  exact (hentries entry hentry).2

theorem invalidatedProperty_ok {values : List Value} (h : ∀ value ∈ values, value.IsString) (name : String) :
    ∃ found, invalidatedProperty name values = .ok found := by
  induction values with
  | nil => exact ⟨false, rfl⟩
  | cons value values ih =>
    obtain ⟨text, rfl⟩ := h _ List.mem_cons_self
    show ∃ found, (if text = name then Except.ok true else invalidatedProperty name values) = .ok found
    split
    · exact ⟨true, rfl⟩
    · exact ih fun value hvalue => h value (List.mem_cons_of_mem _ hvalue)

theorem stringProperty_ok {properties : Value} (h : properties.Properties) (name : String) :
    ∃ found, stringProperty properties name = .ok found := by
  obtain ⟨found, hfound⟩ := property_ok h name
  unfold stringProperty
  rw [hfound]
  dsimp only [bind, Except.bind]
  split <;> exact ⟨_, rfl⟩

theorem boolProperty_ok {properties : Value} (h : properties.Properties) (name : String) :
    ∃ found, boolProperty properties name = .ok found := by
  obtain ⟨found, hfound⟩ := property_ok h name
  unfold boolProperty
  rw [hfound]
  dsimp only [bind, Except.bind]
  split <;> exact ⟨_, rfl⟩

theorem int16Property_ok {properties : Value} (h : properties.Properties) (name : String) :
    ∃ found, int16Property properties name = .ok found := by
  obtain ⟨found, hfound⟩ := property_ok h name
  unfold int16Property
  rw [hfound]
  dsimp only [bind, Except.bind]
  split <;> exact ⟨_, rfl⟩

theorem parseAdapter_ok {properties : Value} (h : properties.Properties) (path : String) :
    ∃ adapter, parseAdapter path properties = .ok adapter := by
  obtain ⟨address, haddress⟩ := stringProperty_ok h "Address"
  obtain ⟨aliasName, haliasName⟩ := stringProperty_ok h "Alias"
  obtain ⟨reportedName, hreportedName⟩ := stringProperty_ok h "Name"
  obtain ⟨powered, hpowered⟩ := boolProperty_ok h "Powered"
  unfold parseAdapter
  rw [haddress, haliasName, hreportedName, hpowered]
  exact ⟨_, rfl⟩

theorem parseDevice_ok {properties : Value} (h : properties.Properties) (path : String) :
    ∃ device, parseDevice path properties = .ok device := by
  obtain ⟨address, haddress⟩ := stringProperty_ok h "Address"
  obtain ⟨aliasName, haliasName⟩ := stringProperty_ok h "Alias"
  obtain ⟨reportedName, hreportedName⟩ := stringProperty_ok h "Name"
  obtain ⟨rssi, hrssi⟩ := int16Property_ok h "RSSI"
  obtain ⟨paired, hpaired⟩ := boolProperty_ok h "Paired"
  obtain ⟨connected, hconnected⟩ := boolProperty_ok h "Connected"
  obtain ⟨servicesResolved, hservicesResolved⟩ := boolProperty_ok h "ServicesResolved"
  unfold parseDevice
  rw [haddress, haliasName, hreportedName, hrssi, hpaired, hconnected, hservicesResolved]
  exact ⟨_, rfl⟩

-- ---------------------------------------------------------------------------
-- Edits
-- ---------------------------------------------------------------------------

/-- What is set of an adapter. -/
structure AdapterEdit where
  address : Option String
  aliasName : Option (Option String)
  reportedName : Option (Option String)
  powered : Option (Option Bool)

def AdapterEdit.apply (e : AdapterEdit) (adapter : Adapter) : Adapter :=
  let address := e.address.getD adapter.address
  let aliasName := e.aliasName.getD adapter.aliasName
  let reportedName := e.reportedName.getD adapter.reportedName
  { adapter with
    address, aliasName, reportedName, powered := e.powered.getD adapter.powered
    name := displayName aliasName reportedName address }

structure DeviceEdit where
  address : Option String
  aliasName : Option (Option String)
  reportedName : Option (Option String)
  rssi : Option (Option Int)
  paired : Option (Option Bool)
  connected : Option (Option Bool)
  servicesResolved : Option (Option Bool)

def DeviceEdit.apply (e : DeviceEdit) (device : Device) : Device :=
  let address := e.address.getD device.address
  let aliasName := e.aliasName.getD device.aliasName
  let reportedName := e.reportedName.getD device.reportedName
  { device with
    address, aliasName, reportedName, rssi := e.rssi.getD device.rssi, paired := e.paired.getD device.paired
    connected := e.connected.getD device.connected
    servicesResolved := e.servicesResolved.getD device.servicesResolved
    name := displayName aliasName reportedName address }

def AdapterEdits (g : Adapter → Adapter) : Prop := ∃ e : AdapterEdit, g = e.apply

def DeviceEdits (g : Device → Device) : Prop := ∃ e : DeviceEdit, g = e.apply

theorem AdapterEdits.comp (g g' : Adapter → Adapter) (h : AdapterEdits g) (h' : AdapterEdits g') :
    AdapterEdits (g' ∘ g) := by
  obtain ⟨e, rfl⟩ := h
  obtain ⟨e', rfl⟩ := h'
  refine ⟨⟨e'.address.or e.address, e'.aliasName.or e.aliasName, e'.reportedName.or e.reportedName,
    e'.powered.or e.powered⟩, funext fun adapter => ?_⟩
  simp only [Function.comp, AdapterEdit.apply, Option.getD_or]

theorem AdapterEdits.idem (g : Adapter → Adapter) (h : AdapterEdits g) (adapter : Adapter) :
    g (g adapter) = g adapter := by
  obtain ⟨e, rfl⟩ := h
  simp only [AdapterEdit.apply, ← Option.getD_or, Option.or_self]

theorem DeviceEdits.comp (g g' : Device → Device) (h : DeviceEdits g) (h' : DeviceEdits g') :
    DeviceEdits (g' ∘ g) := by
  obtain ⟨e, rfl⟩ := h
  obtain ⟨e', rfl⟩ := h'
  refine ⟨⟨e'.address.or e.address, e'.aliasName.or e.aliasName, e'.reportedName.or e.reportedName,
    e'.rssi.or e.rssi,
    e'.paired.or e.paired, e'.connected.or e.connected, e'.servicesResolved.or e.servicesResolved⟩,
    funext fun device => ?_⟩
  simp only [Function.comp, DeviceEdit.apply, Option.getD_or]

theorem DeviceEdits.idem (g : Device → Device) (h : DeviceEdits g) (device : Device) :
    g (g device) = g device := by
  obtain ⟨e, rfl⟩ := h
  simp only [DeviceEdit.apply, ← Option.getD_or, Option.or_self]

/-- A field is set, or kept, whatever it was. -/
theorem change_edit {α : Type} (read : Value → Option α) {changed : Value} {invalidated : List Value}
    {name : String}
    {found : Option Value} {gone : Bool} (hfound : changedProperty changed name = .ok found)
    (hgone : invalidatedProperty name invalidated = .ok gone) :
    ∃ e : Option (Option α), ∀ current, change read changed invalidated name current =
      .ok (e.getD current) := by
  unfold change
  rw [hfound, hgone]
  cases hread : found.bind read with
  | some value => exact ⟨some (some value), fun current => by simp only [bind, Except.bind, hread]; rfl⟩
  | none =>
    cases gone with
    | true => exact ⟨some none, fun current => by simp only [bind, Except.bind, hread]; rfl⟩
    | false => exact ⟨none, fun current => by simp only [bind, Except.bind, hread]; rfl⟩

theorem change_ok {α : Type} (read : Value → Option α) {changed : Value} {values : List Value}
    (hchanged : changed.Properties)
    (hvalues : ∀ value ∈ values, value.IsString) (name : String) :
    ∃ e : Option (Option α), ∀ current, change read changed values name current = .ok (e.getD current) := by
  obtain ⟨found, hfound⟩ := property_ok hchanged name
  obtain ⟨gone, hgone⟩ := invalidatedProperty_ok hvalues name
  exact change_edit read hfound hgone

theorem updateAdapter_ok {changed : Value} {values : List Value} (hchanged : changed.Properties)
    (hvalues : ∀ value ∈ values, value.IsString) :
    ∃ e : AdapterEdit, ∀ adapter, updateAdapter changed values adapter = .ok () (e.apply adapter) := by
  obtain ⟨address, haddress⟩ := change_ok Value.string? hchanged hvalues "Address"
  obtain ⟨aliasName, haliasName⟩ := change_ok Value.string? hchanged hvalues "Alias"
  obtain ⟨reportedName, hreportedName⟩ := change_ok Value.string? hchanged hvalues "Name"
  obtain ⟨powered, hpowered⟩ := change_ok Value.bool? hchanged hvalues "Powered"
  refine ⟨⟨address.map (·.getD ""), aliasName, reportedName, powered⟩, fun adapter => ?_⟩
  have haddress' : (address.getD (some adapter.address)).getD "" = (address.map (·.getD "")).getD
    adapter.address := by
    cases address <;> rfl
  unfold AdapterEdit.apply
  rw [← haddress']
  simp only [updateAdapter, stringChange, boolChange, bind, EStateM.bind, get, getThe, MonadStateOf.get,
    EStateM.get, modify,
    modifyGet, MonadStateOf.modifyGet, EStateM.modifyGet, haddress, haliasName, hreportedName,
      hpowered, reads, pure,
    EStateM.pure]

theorem updateDevice_ok {changed : Value} {values : List Value} (hchanged : changed.Properties)
    (hvalues : ∀ value ∈ values, value.IsString) :
    ∃ e : DeviceEdit, ∀ device, updateDevice changed values device = .ok () (e.apply device) := by
  obtain ⟨address, haddress⟩ := change_ok Value.string? hchanged hvalues "Address"
  obtain ⟨aliasName, haliasName⟩ := change_ok Value.string? hchanged hvalues "Alias"
  obtain ⟨reportedName, hreportedName⟩ := change_ok Value.string? hchanged hvalues "Name"
  obtain ⟨rssi, hrssi⟩ := change_ok Value.int16? hchanged hvalues "RSSI"
  obtain ⟨paired, hpaired⟩ := change_ok Value.bool? hchanged hvalues "Paired"
  obtain ⟨connected, hconnected⟩ := change_ok Value.bool? hchanged hvalues "Connected"
  obtain ⟨servicesResolved, hservicesResolved⟩ := change_ok Value.bool? hchanged hvalues "ServicesResolved"
  refine ⟨⟨address.map (·.getD ""), aliasName, reportedName, rssi, paired, connected, servicesResolved⟩,
    fun device => ?_⟩
  have haddress' : (address.getD (some device.address)).getD "" = (address.map (·.getD "")).getD
    device.address := by
    cases address <;> rfl
  unfold DeviceEdit.apply
  rw [← haddress']
  simp only [updateDevice, stringChange, boolChange, rssiChange, bind, EStateM.bind, get, getThe,
    MonadStateOf.get,
    EStateM.get, modify, modifyGet, MonadStateOf.modifyGet, EStateM.modifyGet, haddress, haliasName,
      hreportedName, hrssi,
    hpaired, hconnected, hservicesResolved, reads, pure, EStateM.pure]

-- ---------------------------------------------------------------------------
-- What a signal says
-- ---------------------------------------------------------------------------

/-- The adapters and the devices of BlueZ under their object paths. -/
abbrev Objects := Consumer

namespace Value

def text : Value → String
  | .string value => value
  | _ => ""

def path : Value → String
  | .objectPath value => value
  | _ => ""

def values : Value → List Value
  | .array _ values => values
  | _ => []

end Value

/-- The adapter that the message describes. -/
def parsedAdapter (path : String) (interfaces : Value) : Option Adapter :=
  match findInterface interfaces kAdapter with
  | .ok (some properties) => (parseAdapter path properties).toOption
  | _ => none

def parsedDevice (path : String) (interfaces : Value) : Option Device :=
  match findInterface interfaces kDevice with
  | .ok (some properties) => (parseDevice path properties).toOption
  | _ => none

/-- A cell of a map is written, if there is something to write. -/
def put {α : Type} (cells : String → Option α) (path : String) (value : Option α) : String → Option α :=
  match value with
  | some value => Function.update cells path (some value)
  | none => cells

namespace Objects

def add (w : Objects) (path interfaces : Value) : Objects :=
  ⟨put w.adapters path.path (parsedAdapter path.path interfaces),
    put w.devices path.path (parsedDevice path.path interfaces)⟩

def removeOne (path : String) (w : Objects) (interface : Value) : Objects :=
  if interface.text = kAdapter then { w with adapters := Function.update w.adapters path none }
  else if interface.text = kDevice then { w with devices := Function.update w.devices path none }
  else w

def remove (w : Objects) (path interfaces : Value) : Objects := interfaces.values.foldl (removeOne path.path) w

def change (w : Objects) (path : String) (interface changed invalidated : Value) : Objects :=
  if interface.text = kAdapter then
    { w with
      adapters := Function.update w.adapters path ((w.adapters path).map
        (final (updateAdapter changed invalidated.values))) }
  else if interface.text = kDevice then
    { w with
      devices := Function.update w.devices path ((w.devices path).map
        (final (updateDevice changed invalidated.values))) }
  else w

/-- A name that is lost takes the objects with it. -/
def disown (w : Objects) (name oldOwner : Value) : Objects :=
  if name.text = kBluez ∧ oldOwner.text ≠ "" then {} else w

def effect (w : Objects) (signal : Signal) : Objects :=
  match signal.arguments with
  | [first, second, third] =>
    if signal.member = "NameOwnerChanged" then w.disown first second
    else if signal.member = "PropertiesChanged" then w.change signal.path first second third
    else w
  | [first, second] =>
    if signal.member = "InterfacesAdded" then w.add first second
    else if signal.member = "InterfacesRemoved" then w.remove first second
    else w
  | _ => w

def effects (signals : List Signal) (w : Objects) : Objects := signals.foldl effect w

theorem effects_append (signals signals' : List Signal) (w : Objects) :
    effects (signals ++ signals') w = effects signals' (effects signals w) := List.foldl_append ..

/-- Every cell is set, kept or edited. -/
structure Settled (F : Objects → Objects) : Prop where
  adapters : ∀ path, ∃ f, Settles AdapterEdits f ∧ ∀ w, (F w).adapters path = f (w.adapters path)
  devices : ∀ path, ∃ f, Settles DeviceEdits f ∧ ∀ w, (F w).devices path = f (w.devices path)

theorem Settled.id : Settled fun w => w :=
  ⟨fun _ => ⟨_, .keeps fun _ => rfl, fun _ => rfl⟩, fun _ => ⟨_, .keeps fun _ => rfl, fun _ => rfl⟩⟩

theorem Settled.comp {F F' : Objects → Objects} (h : Settled F) (h' : Settled F') : Settled fun w =>
    F' (F w) where
  adapters path := by
    obtain ⟨f, hf, heq⟩ := h.adapters path
    obtain ⟨f', hf', heq'⟩ := h'.adapters path
    exact ⟨f' ∘ f, hf.comp AdapterEdits.comp hf', fun w => by rw [heq', heq]; rfl⟩
  devices path := by
    obtain ⟨f, hf, heq⟩ := h.devices path
    obtain ⟨f', hf', heq'⟩ := h'.devices path
    exact ⟨f' ∘ f, hf.comp DeviceEdits.comp hf', fun w => by rw [heq', heq]; rfl⟩

theorem Settled.idem {F : Objects → Objects} (h : Settled F) (w : Objects) : F (F w) = F w := by
  have hadapters : (F (F w)).adapters = (F w).adapters := funext fun path => by
    obtain ⟨f, hf, heq⟩ := h.adapters path
    rw [heq, heq, hf.idem AdapterEdits.idem]
  have hdevices : (F (F w)).devices = (F w).devices := funext fun path => by
    obtain ⟨f, hf, heq⟩ := h.devices path
    rw [heq, heq, hf.idem DeviceEdits.idem]
  cases hF : F w with
  | mk adapters devices =>
    rw [hF] at hadapters hdevices
    cases hFF : F ⟨adapters, devices⟩ with
    | mk adapters' devices' =>
      rw [hFF] at hadapters hdevices
      exact congrArg₂ Consumer.mk hadapters hdevices

/-- One cell is set. -/
theorem update_settles {α : Type} {G : (α → α) → Prop} (path : String) (value : Option α) (other : String) :
    ∃ f, Settles G f ∧ ∀ cells : String → Option α, Function.update cells path value other =
      f (cells other) := by
  by_cases hother : other = path
  · subst hother
    exact ⟨fun _ => value, .sets value fun _ => rfl, fun cells => Function.update_self ..⟩
  · exact ⟨fun x => x, .keeps fun _ => rfl, fun cells => Function.update_of_ne hother ..⟩

/-- One cell is edited. -/
theorem edit_settles {α : Type} {G : (α → α) → Prop} {g : α → α} (hg : G g) (path other : String) :
    ∃ f, Settles G f ∧
      ∀ cells : String → Option α, Function.update cells path ((cells path).map g) other = f (cells other) := by
  by_cases hother : other = path
  · subst hother
    exact ⟨Option.map g, .edits hg fun _ => rfl, fun cells => Function.update_self ..⟩
  · exact ⟨fun x => x, .keeps fun _ => rfl, fun cells => Function.update_of_ne hother ..⟩

theorem put_settles {α : Type} {G : (α → α) → Prop} (path : String) (value : Option α) (other : String) :
    ∃ f, Settles G f ∧ ∀ cells : String → Option α, put cells path value other = f (cells other) := by
  cases value with
  | none => exact ⟨fun x => x, .keeps fun _ => rfl, fun _ => rfl⟩
  | some value => exact update_settles path (some value) other

theorem keeps_settles {α : Type} {G : (α → α) → Prop} (path : String) :
    ∃ f, Settles G f ∧ ∀ cells : String → Option α, cells path = f (cells path) :=
  ⟨fun x => x, .keeps fun _ => rfl, fun _ => rfl⟩

/-- Where the cells of one map are changed only. -/
theorem settled_of {F : Objects → Objects} {A : (String → Option Adapter) → String → Option Adapter}
    {D : (String → Option Device) → String → Option Device}
    (hadapters : ∀ path, ∃ f, Settles AdapterEdits f ∧ ∀ cells, A cells path = f (cells path))
    (hdevices : ∀ path, ∃ f, Settles DeviceEdits f ∧ ∀ cells, D cells path = f (cells path))
    (h : ∀ w, F w = ⟨A w.adapters, D w.devices⟩) : Settled F where
  adapters path := by
    obtain ⟨f, hf, heq⟩ := hadapters path
    exact ⟨f, hf, fun w => by rw [h]; exact heq _⟩
  devices path := by
    obtain ⟨f, hf, heq⟩ := hdevices path
    exact ⟨f, hf, fun w => by rw [h]; exact heq _⟩

theorem remove_settled (path : String) (values : List Value) : Settled fun w => values.foldl
    (removeOne path) w := by
  induction values with
  | nil => exact .id
  | cons value values ih =>
    have hone : Settled fun w => removeOne path w value := by
      unfold removeOne
      split
      · exact settled_of (update_settles path none) keeps_settles fun _ => rfl
      · split
        · exact settled_of keeps_settles (update_settles path none) fun _ => rfl
        · exact .id
    exact hone.comp ih

theorem effect_settled {signal : Signal} (h : WellFormed signal) : Settled fun w => w.effect signal := by
  cases h with
  | nameOwnerChanged path name oldOwner newOwner =>
    show Settled fun w => if name = kBluez ∧ oldOwner ≠ "" then ({} : Objects) else w
    split
    · exact settled_of (A := fun _ _ => none) (D := fun _ _ => none) (fun _ => ⟨fun _ => none,
        .sets none fun _ => rfl, fun _ => rfl⟩)
        (fun _ => ⟨fun _ => none, .sets none fun _ => rfl, fun _ => rfl⟩) fun _ => rfl
    · exact .id
  | interfacesAdded sender path h => exact settled_of (put_settles path _) (put_settles path _) fun _ => rfl
  | interfacesRemoved sender path h => exact remove_settled path _
  | propertiesChanged path interface hchanged hinvalidated =>
    obtain ⟨values, rfl, hvalues⟩ := hinvalidated
    rename_i changed
    show Settled fun w => change w path (.string interface) changed (.array "s" values)
    unfold change
    split
    · obtain ⟨e, he⟩ := updateAdapter_ok hchanged hvalues
      have hfinal : final (updateAdapter changed values) = e.apply := funext fun adapter => by rw [final, he]
      exact settled_of (edit_settles ⟨e, hfinal⟩ path) keeps_settles fun _ => rfl
    · split
      · obtain ⟨e, he⟩ := updateDevice_ok hchanged hvalues
        have hfinal : final (updateDevice changed values) = e.apply := funext fun device => by rw [final, he]
        exact settled_of keeps_settles (edit_settles ⟨e, hfinal⟩ path) fun _ => rfl
      · exact .id

theorem effects_settled {signals : List Signal} (h : ∀ signal ∈ signals, WellFormed signal) :
    Settled (effects signals) := by
  induction signals with
  | nil => exact .id
  | cons signal signals ih =>
    exact (effect_settled (h signal List.mem_cons_self)).comp (ih fun other hother =>
      h other (List.mem_cons_of_mem _ hother))

/-- Signals that are applied to what they have led to change nothing. -/
theorem effects_twice {signals : List Signal} (h : ∀ signal ∈ signals, WellFormed signal) (w : Objects) :
    effects signals (effects signals w) = effects signals w := (effects_settled h).idem w

end Objects
end Dmn.Bluez
