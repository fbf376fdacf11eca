import Mathlib.Data.List.Basic

/-!
# Device identities

Addresses are byte strings; the engine compares them without regard to case,
the selection model keeps them in upper case and compares them exactly.
-/

namespace Dmn.Engine

/-- `std::string` -/
abbrev Bytes := List UInt8

def tolower (b : UInt8) : UInt8 := if 65 ≤ b ∧ b ≤ 90 then b + 32 else b

def toupper (b : UInt8) : UInt8 := if 97 ≤ b ∧ b ≤ 122 then b - 32 else b

theorem tolower_toupper (b : UInt8) : tolower (toupper b) = tolower b := by
  unfold tolower toupper
  grind

theorem toupper_tolower (b : UInt8) : toupper (tolower b) = toupper b := by
  unfold tolower toupper
  grind

theorem toupper_toupper (b : UInt8) : toupper (toupper b) = toupper b := by
  unfold toupper
  grind

def lower (text : Bytes) : Bytes := text.map tolower

def normalizeAddress (address : Bytes) : Bytes := address.map toupper

@[simp] theorem lower_normalizeAddress (address : Bytes) : lower (normalizeAddress address) =
    lower address := by
  simp [lower, normalizeAddress, tolower_toupper]

@[simp] theorem normalizeAddress_lower (address : Bytes) : normalizeAddress (lower address) =
    normalizeAddress address := by
  simp [lower, normalizeAddress, toupper_tolower]

@[simp] theorem normalizeAddress_idem (address : Bytes) :
    normalizeAddress (normalizeAddress address) = normalizeAddress address := by
  simp [normalizeAddress, toupper_toupper]

/-- `Dmn_DeviceIdentity` -/
structure Identity where
  adapterAddress : Bytes
  deviceAddress : Bytes
  deriving DecidableEq

def normalizeIdentity (identity : Identity) : Identity :=
  ⟨normalizeAddress identity.adapterAddress, normalizeAddress identity.deviceAddress⟩

abbrev Key := Bytes × Bytes

/-- The source joins the two by a slash: see `joined_identityKey`. -/
def identityKey (identity : Identity) : Key := (lower identity.adapterAddress, lower identity.deviceAddress)

def sameIdentity (left right : Identity) : Bool :=
  lower left.adapterAddress == lower right.adapterAddress && lower left.deviceAddress == lower
    right.deviceAddress

def contains (list : List Identity) (identity : Identity) : Bool := list.any fun entry =>
    sameIdentity entry identity

def slash : UInt8 := 47

/-- The text that the source makes of a key. -/
def Key.joined (key : Key) : Bytes := key.1 ++ slash :: key.2

/-- As every Bluetooth address. -/
def Identity.Slashless (identity : Identity) : Prop :=
  slash ∉ identity.adapterAddress ∧ slash ∉ identity.deviceAddress

theorem slash_lower {address : Bytes} (h : slash ∉ address) : slash ∉ lower address := by
  intro lowered
  obtain ⟨b, mem, eq⟩ := List.mem_map.mp lowered
  -- a capital letter stays a letter
  have plain : b = slash := by
    unfold tolower slash at *
    grind
  exact h (plain ▸ mem)

/-- Where no address contains a slash, the text tells apart what the pair does. -/
theorem joined_identityKey {left right : Identity} (h : left.Slashless) :
    (identityKey left).joined = (identityKey right).joined ↔ identityKey left = identityKey right := by
  unfold Key.joined identityKey
  rw [List.append_cons_inj_of_notMem (slash_lower h.1) (slash_lower h.2), Prod.mk.injEq]
  simp

theorem sameIdentity_iff {left right : Identity} : sameIdentity left right ↔ identityKey left =
    identityKey right := by
  simp [sameIdentity, identityKey]

theorem contains_iff {list : List Identity} {identity : Identity} :
    contains list identity ↔ ∃ entry ∈ list, identityKey entry = identityKey identity := by
  simp [contains, sameIdentity_iff]

/-- As the selection model keeps them. -/
def Identity.Normal (identity : Identity) : Prop := normalizeIdentity identity = identity

theorem normalizeIdentity_normal (identity : Identity) : (normalizeIdentity identity).Normal := by
  simp [Identity.Normal, normalizeIdentity]

@[simp] theorem identityKey_normalizeIdentity (identity : Identity) :
    identityKey (normalizeIdentity identity) = identityKey identity := by
  simp [identityKey, normalizeIdentity]

/-- Two identities that differ in case only are normalized to one. -/
theorem normalizeIdentity_eq_iff {left right : Identity} :
    normalizeIdentity left = normalizeIdentity right ↔ identityKey left = identityKey right := by
  constructor
  · intro h
    rw [← identityKey_normalizeIdentity left, h, identityKey_normalizeIdentity]
  · intro h
    obtain ⟨hadapter, hdevice⟩ := Prod.mk.inj h
    have hadapter' := congrArg normalizeAddress hadapter
    have hdevice' := congrArg normalizeAddress hdevice
    rw [normalizeAddress_lower, normalizeAddress_lower] at hadapter' hdevice'
    rw [normalizeIdentity, normalizeIdentity, hadapter', hdevice']

theorem Identity.Normal.eq_iff {left right : Identity} (hleft : left.Normal) (hright : right.Normal) :
    left = right ↔ identityKey left = identityKey right := by
  rw [← normalizeIdentity_eq_iff, hleft, hright]

end Dmn.Engine
