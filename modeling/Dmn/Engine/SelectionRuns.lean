import Dmn.Engine.Selection
import Dmn.Lib.StableSort
import Dmn.Lib.Transition
import Mathlib

/-!
# Runs of the device selection model

What holds of the two selections and of the devices after any calls, and when the comparison of
the two selections as lists is the one of the devices in them.
-/

namespace Dmn.Engine

open Lib

-- ---------------------------------------------------------------------------
-- The order of the devices is total
-- ---------------------------------------------------------------------------

theorem compareCaseInsensitive_lt {left right : Bytes} :
    compareCaseInsensitive left right = .lt ↔ lower left < lower right := by
  fun_induction compareCaseInsensitive left right with
  | case1 => simp [lower]
  | case2 => simp [lower]
  | case3 => simp [lower]
  | case4 left lefts right rights hne hlt =>
    simp only [lower, List.map_cons, List.cons_lt_cons_iff, hlt, true_or]
  | case5 left lefts right rights hne hge =>
    simp [lower, List.cons_lt_cons_iff, hge, hne]
  | case6 left lefts right rights heq ih =>
    have heq : tolower left = tolower right := by simpa using heq
    simp only [lower, List.map_cons, List.cons_lt_cons_iff, heq, UInt8.lt_irrefl, false_or, true_and]
    exact ih

theorem compareCaseInsensitive_swap (left right : Bytes) :
    (compareCaseInsensitive left right).swap = compareCaseInsensitive right left := by
  fun_induction compareCaseInsensitive left right with
  | case1 => rfl
  | case2 => rfl
  | case3 => rfl
  | case4 left lefts right rights hne hlt =>
    simp [compareCaseInsensitive, Ne.symm hne, UInt8.lt_asymm hlt]
  | case5 left lefts right rights hne hge =>
    have hgt : tolower right < tolower left := by grind
    simp [compareCaseInsensitive, Ne.symm hne, hgt]
  | case6 left lefts right rights heq ih =>
    have heq : tolower left = tolower right := by simpa using heq
    simpa [compareCaseInsensitive, heq] using ih

theorem strictTotalOn_lt : StrictTotalOn (fun left right : Bytes => decide (left < right)) id where
  irrefl a := decide_eq_false Std.lt_irrefl
  trans hab hbc := decide_eq_true (Std.lt_trans (of_decide_eq_true hab) (of_decide_eq_true hbc))
  connected {a b} hne := by
    rcases Std.lt_trichotomy a b with h | h | h
    · exact .inl (decide_eq_true h)
    · exact absurd h hne
    · exact .inr (decide_eq_true h)

/-- Text comes before text whatever the case. -/
def textLess (left right : Bytes) : Bool := compareCaseInsensitive left right == .lt

theorem textLess_eq : textLess = fun left right => decide (lower left < lower right) := by
  funext left right
  rw [Bool.eq_iff_iff, textLess, beq_iff_eq, compareCaseInsensitive_lt, decide_eq_true_iff]

theorem strictWeakOrder_textLess : StrictWeakOrder textLess := by
  rw [textLess_eq]
  exact strictTotalOn_lt.strictWeakOrder.comap lower

theorem strictWeakOrder_flip {lt : α → α → Bool} (h : StrictWeakOrder lt) :
    StrictWeakOrder fun a b => lt b a where
  irrefl := h.irrefl
  trans hab hbc := h.trans hbc hab
  incompTrans hab hba hbc hcb := h.incompTrans hbc hcb hab hba

namespace SelectionModel

def primaryLess (m : SelectionModel) (left right : DeviceEntry) : Bool :=
  let key := match m.sortColumn with
    | .name => deviceDisplayName
    | .status => deviceDisplayStatus
  if m.sortAscending then textLess (key left) (key right) else textLess (key right) (key left)

def addressLess : DeviceEntry → DeviceEntry → Bool :=
  thenBy (fun left right => decide (left.identity.adapterAddress < right.identity.adapterAddress))
    fun left right => decide (left.identity.deviceAddress < right.identity.deviceAddress)

theorem textLess_swap (left right : Bytes) :
    textLess right left = (compareCaseInsensitive left right == .gt) := by
  rw [textLess, ← compareCaseInsensitive_swap left right]
  cases compareCaseInsensitive left right <;> rfl

theorem addressLess_eq (left right : DeviceEntry) :
    addressLess left right =
      if left.identity.adapterAddress ≠ right.identity.adapterAddress then
        decide (left.identity.adapterAddress < right.identity.adapterAddress)
      else decide (left.identity.deviceAddress < right.identity.deviceAddress) := by
  unfold addressLess thenBy
  rcases Std.lt_trichotomy left.identity.adapterAddress right.identity.adapterAddress with h | h | h
  · have hne : left.identity.adapterAddress ≠ right.identity.adapterAddress := fun he =>
      Std.lt_irrefl (he ▸ h)
    simp [h, hne]
  · have hsame : ¬right.identity.adapterAddress < right.identity.adapterAddress := Std.lt_irrefl
    simp [h, hsame]
  · have hne : left.identity.adapterAddress ≠ right.identity.adapterAddress := fun he =>
      Std.lt_irrefl (he ▸ h)
    have hleft : ¬left.identity.adapterAddress < right.identity.adapterAddress := fun hlt =>
      Std.lt_irrefl (Std.lt_trans h hlt)
    simp [h, hne, hleft]

/-- The comparison is the chosen column, then the name, then the two addresses. -/
theorem less_eq (m : SelectionModel) :
    m.less = thenBy m.primaryLess (thenBy
      (fun left right => textLess (deviceDisplayName left) (deviceDisplayName right)) addressLess) := by
  funext left right
  unfold less primaryLess thenBy
  cases m.sortColumn <;> cases m.sortAscending <;>
    simp only [addressLess_eq, textLess_swap (deviceDisplayName left) (deviceDisplayName right),
      textLess_swap (deviceDisplayStatus left) (deviceDisplayStatus right)] <;>
    unfold textLess <;>
    generalize compareCaseInsensitive (deviceDisplayName left) (deviceDisplayName right) = name <;>
    generalize compareCaseInsensitive (deviceDisplayStatus left) (deviceDisplayStatus right) = status <;>
    cases name <;> cases status <;> simp

theorem strictWeakOrder_addressLess : StrictWeakOrder addressLess :=
  (strictTotalOn_lt.strictWeakOrder.comap fun device : DeviceEntry => device.identity.adapterAddress).thenBy
    (strictTotalOn_lt.strictWeakOrder.comap fun device : DeviceEntry => device.identity.deviceAddress)

theorem strictTotalOn_addressLess : StrictTotalOn addressLess DeviceEntry.identity := by
  refine ⟨strictWeakOrder_addressLess.irrefl, strictWeakOrder_addressLess.trans, fun {a b} hne => ?_⟩
  rw [addressLess_eq, addressLess_eq]
  by_cases hadapter : a.identity.adapterAddress = b.identity.adapterAddress
  · have hdevice : a.identity.deviceAddress ≠ b.identity.deviceAddress := fun hdevice => hne (by
      cases ha : a.identity
      cases hb : b.identity
      simp_all)
    rw [if_neg (by simpa using hadapter), if_neg (by simpa using hadapter.symm)]
    exact strictTotalOn_lt.connected hdevice
  · rw [if_pos hadapter, if_pos (Ne.symm hadapter)]
    exact strictTotalOn_lt.connected hadapter

theorem strictWeakOrder_primaryLess (m : SelectionModel) : StrictWeakOrder m.primaryLess := by
  unfold primaryLess
  cases m.sortColumn <;> cases m.sortAscending
  · exact strictWeakOrder_flip (strictWeakOrder_textLess.comap deviceDisplayName)
  · exact strictWeakOrder_textLess.comap deviceDisplayName
  · exact strictWeakOrder_flip (strictWeakOrder_textLess.comap deviceDisplayStatus)
  · exact strictWeakOrder_textLess.comap deviceDisplayStatus

theorem strictWeakOrder_less (m : SelectionModel) : StrictWeakOrder m.less := by
  rw [less_eq]
  exact m.strictWeakOrder_primaryLess.thenBy
    ((strictWeakOrder_textLess.comap deviceDisplayName).thenBy strictWeakOrder_addressLess)

/-- Two devices of different identity are never tied. -/
theorem strictTotalOn_less (m : SelectionModel) : StrictTotalOn m.less DeviceEntry.identity := by
  rw [less_eq]
  exact .thenBy m.strictWeakOrder_primaryLess
    (.thenBy (strictWeakOrder_textLess.comap deviceDisplayName) strictTotalOn_addressLess)

theorem sorted_applySort {m : SelectionModel} (hnodup : (m.devices.map (·.identity)).Nodup) :
    m.applySort.devices.Pairwise (m.less · ·) := by
  have hweak := m.strictWeakOrder_less
  have htotal : Std.Total fun left right => m.less right left = false := ⟨fun a b => by
    cases hab : m.less a b
    · exact .inr rfl
    · exact .inl (hweak.asymm hab)⟩
  have htrans : IsTrans DeviceEntry fun left right => m.less right left = false := ⟨fun a b c hba hcb => by
    by_contra hca
    have hca : m.less c a = true := by simpa using hca
    cases hab : m.less a b
    · have := hweak.lt_of_lt_equiv hca hab hba
      simp [hcb] at this
    · have := hweak.trans hca hab
      simp [hcb] at this⟩
  have hsorted := List.pairwise_insertionSort (fun left right => m.less right left = false) m.devices
  have hdistinct : (m.applySort.devices.map (·.identity)).Nodup :=
    ((devices_applySort m).map _).nodup_iff.mpr hnodup
  refine hsorted.imp₂ (fun a b hba hne => ?_) (List.pairwise_map.mp hdistinct)
  exact (m.strictTotalOn_less.connected hne).resolve_right (by simp [hba])

-- ---------------------------------------------------------------------------
-- The merged entries
-- ---------------------------------------------------------------------------

/-- The devices of an inventory, and an entry for each saved one that is not there. -/
def merged (saved : List Identity) (inventory : List DeviceEntry) : List DeviceEntry :=
  saved.foldl addSaved (inventory.filter (·.present))

theorem present_foldl_addSaved (saved : List Identity) (devices : List DeviceEntry) :
    (saved.foldl addSaved devices).filter (·.present) = devices.filter (·.present) := by
  induction saved generalizing devices with
  | nil => rfl
  | cons identity saved ih =>
    rw [List.foldl_cons, ih, addSaved]
    split
    · rfl
    · simp [placeholder]

theorem perm_foldl_addSaved (saved : List Identity) {devices devices' : List DeviceEntry}
    (hperm : devices.Perm devices') :
    (saved.foldl addSaved devices).Perm (saved.foldl addSaved devices') := by
  induction saved generalizing devices devices' with
  | nil => exact hperm
  | cons identity saved ih =>
    refine ih ?_
    unfold addSaved
    rw [hperm.any_eq]
    split
    · exact hperm
    · exact hperm.append_right _

theorem subset_foldl_addSaved (saved : List Identity) (devices : List DeviceEntry) :
    devices ⊆ saved.foldl addSaved devices := by
  induction saved generalizing devices with
  | nil => exact List.Subset.refl _
  | cons identity saved ih =>
    refine List.Subset.trans ?_ (ih _)
    unfold addSaved
    split
    · exact List.Subset.refl _
    · exact List.subset_append_left ..

theorem listed_foldl_addSaved {saved : List Identity} {identity : Identity} (h : identity ∈ saved)
    (devices : List DeviceEntry) : ∃ device ∈ saved.foldl addSaved devices, device.identity = identity := by
  induction saved generalizing devices with
  | nil => cases h
  | cons first saved ih =>
    rcases List.mem_cons.mp h with rfl | h
    · have hadded : ∃ device ∈ addSaved devices identity, device.identity = identity := by
        unfold addSaved
        split
        · rename_i hany
          simpa using hany
        · exact ⟨placeholder identity, by simp, rfl⟩
      obtain ⟨device, hdevice, hsame⟩ := hadded
      exact ⟨device, subset_foldl_addSaved saved _ hdevice, hsame⟩
    · exact ih h _

/-- Devices of distinct keys have distinct identities. -/
theorem nodup_of_distinct {devices : List DeviceEntry} (h : Distinct devices) :
    (devices.map (·.identity)).Nodup := by
  have hkeys : ((devices.map (·.identity)).map identityKey).Nodup := by
    rw [List.map_map]
    exact h
  exact hkeys.of_map

end SelectionModel

-- ---------------------------------------------------------------------------
-- Runs
-- ---------------------------------------------------------------------------

inductive SelectionCall where
  | replaceInventory (inventory : List DeviceEntry)
  | loadSavedSelection (selection : List Identity)
  | setDraftSelected (identity : Identity) (selected : Bool)
  | saveSelection
  | discardChanges
  | sortDevices (column : SortColumn) (ascending : Bool)

/-- The model, and the inventory it was given last. -/
structure SelectionSession where
  model : SelectionModel
  -- History: as it was kept, with normalized identities.
  inventory : List DeviceEntry := []

namespace SelectionSession

def start (selectionLimit : Nat) : SelectionSession := { model := { selectionLimit } }

def step (s : SelectionSession) : SelectionCall → Option SelectionSession
  | .replaceInventory inventory =>
    some ⟨s.model.replaceInventory inventory,
      inventory.map fun device => { device with identity := normalizeIdentity device.identity }⟩
  | .loadSavedSelection selection => some { s with model := s.model.loadSavedSelection selection }
  | .setDraftSelected identity selected =>
    some { s with model := (s.model.setDraftSelected identity selected).1 }
  | .saveSelection => some { s with model := s.model.saveSelection }
  | .discardChanges => some { s with model := s.model.discardChanges }
  | .sortDevices column ascending => some { s with model := s.model.sortDevices column ascending }

/-- The identities of an inventory are distinct once they are normalized. -/
def Allowed (_ : SelectionSession) : SelectionCall → Prop
  | .replaceInventory inventory => (inventory.map fun device => normalizeIdentity device.identity).Nodup
  | _ => True

instance : (s : SelectionSession) → (call : SelectionCall) → Decidable (s.Allowed call)
  | _, .replaceInventory inventory =>
    inferInstanceAs (Decidable (inventory.map fun device => normalizeIdentity device.identity).Nodup)
  | _, .loadSavedSelection _ | _, .setDraftSelected _ _ | _, .saveSelection | _, .discardChanges
  | _, .sortDevices _ _ => .isTrue trivial

/-- A saved device that is put back stands behind the saved devices that are in the draft. -/
def InOrder (s : SelectionSession) : SelectionCall → Prop
  | .setDraftSelected identity true =>
    normalizeIdentity identity ∈ s.model.savedSelection →
    normalizeIdentity identity ∉ s.model.draftSelection →
    ∀ other ∈ s.model.draftSelection, other ∈ s.model.savedSelection →
      s.model.savedSelection.idxOf other < s.model.savedSelection.idxOf (normalizeIdentity identity)
  | _ => True

instance : (s : SelectionSession) → (call : SelectionCall) → Decidable (s.InOrder call)
  | s, .setDraftSelected identity true =>
    inferInstanceAs (Decidable (normalizeIdentity identity ∈ s.model.savedSelection →
      normalizeIdentity identity ∉ s.model.draftSelection →
      ∀ other ∈ s.model.draftSelection, other ∈ s.model.savedSelection →
        s.model.savedSelection.idxOf other < s.model.savedSelection.idxOf (normalizeIdentity identity)))
  | _, .setDraftSelected _ false | _, .replaceInventory _ | _, .loadSavedSelection _ | _, .saveSelection
  | _, .discardChanges | _, .sortDevices _ _ => .isTrue trivial

/-- What a selection is. -/
structure Selected (limit : Nat) (selection : List Identity) : Prop where
  normal : ∀ identity ∈ selection, identity.Normal
  nodup : selection.Nodup
  length : selection.length ≤ limit

structure Consistent (limit : Nat) (s : SelectionSession) : Prop where
  saved : Selected limit s.model.savedSelection
  draft : Selected limit s.model.draftSelection
  listed : ∀ identity ∈ s.model.savedSelection, (s.model.devices.map (·.identity)).count identity = 1
  absent : ∀ device ∈ s.model.devices, device.present = false → device.identity ∈ s.model.savedSelection
  merged : s.model.devices.Perm (SelectionModel.merged s.model.savedSelection s.inventory)
  sorted : s.model.devices.Pairwise (s.model.less · ·)

/-- `hasUnsavedChanges` compares the two selections as sets of devices. -/
def ChangesSeen (s : SelectionSession) : Prop :=
  s.model.hasUnsavedChanges = true ↔
    ∃ identity, ¬(identity ∈ s.model.draftSelection ↔ identity ∈ s.model.savedSelection)

/-- The draft is the saved selection in another order. -/
def Reordered (s : SelectionSession) : Prop :=
  s.model.draftSelection.Perm s.model.savedSelection ∧ s.model.draftSelection ≠ s.model.savedSelection

instance : DecidablePred Reordered := fun s =>
  inferInstanceAs (Decidable (s.model.draftSelection.Perm s.model.savedSelection ∧
    s.model.draftSelection ≠ s.model.savedSelection))

variable {s s' : SelectionSession} {limit : Nat}

structure Inv (limit : Nat) (s : SelectionSession) : Prop where
  bound : s.model.selectionLimit = limit
  saved : Selected limit s.model.savedSelection
  draft : Selected limit s.model.draftSelection
  normal : ∀ device ∈ s.inventory, device.identity.Normal
  distinct : SelectionModel.Distinct s.inventory
  merged : s.model.devices.Perm (SelectionModel.merged s.model.savedSelection s.inventory)
  sorted : s.model.devices.Pairwise (s.model.less · ·)

/-- The identities of the merged entries are distinct. -/
theorem nodup_merged {saved : List Identity} {inventory : List DeviceEntry} (hsaved : Selected limit saved)
    (hnormal : ∀ device ∈ inventory, device.identity.Normal) (hdistinct : SelectionModel.Distinct inventory) :
    ((SelectionModel.merged saved inventory).map (·.identity)).Nodup :=
  SelectionModel.nodup_of_distinct (SelectionModel.distinct_foldl_addSaved
    (hdistinct.sublist (List.filter_sublist.map _))
    (fun device hdevice => hnormal device (List.mem_filter.mp hdevice).1) hsaved.normal)

theorem Inv.consistent (inv : s.Inv limit) : s.Consistent limit where
  saved := inv.saved
  draft := inv.draft
  listed identity hidentity := by
    have hnodup := nodup_merged inv.saved inv.normal inv.distinct
    obtain ⟨device, hdevice, hsame⟩ := SelectionModel.listed_foldl_addSaved hidentity _
    rw [(inv.merged.map _).count_eq]
    exact List.count_eq_one_of_mem hnodup (List.mem_map.mpr ⟨device, hdevice, hsame⟩)
  absent device hdevice habsent := by
    rcases SelectionModel.mem_foldl_addSaved (inv.merged.mem_iff.mp hdevice) with hold | ⟨identity,
      hidentity, rfl⟩
    · simp [habsent] at hold
    · exact hidentity
  merged := inv.merged
  sorted := inv.sorted

/-- The merge restores the entries from those that are present. -/
theorem Inv.merge {m : SelectionModel} {inventory : List DeviceEntry} (hlimit : m.selectionLimit = limit)
    (hsaved : Selected limit m.savedSelection) (hdraft : Selected limit m.draftSelection)
    (hnormal : ∀ device ∈ inventory, device.identity.Normal) (hdistinct : SelectionModel.Distinct inventory)
    (hpresent : (m.devices.filter (·.present)).Perm (inventory.filter (·.present))) :
    Inv limit ⟨m.mergeSavedDevices, inventory⟩ := by
  have hmerged : (m.savedSelection.foldl SelectionModel.addSaved (m.devices.filter (·.present))).Perm
      (SelectionModel.merged m.savedSelection inventory) :=
    SelectionModel.perm_foldl_addSaved _ hpresent
  have hsorted := SelectionModel.sorted_applySort (m := { m with
    devices := m.savedSelection.foldl SelectionModel.addSaved (m.devices.filter (·.present)) })
    ((hmerged.map _).nodup_iff.mpr (nodup_merged hsaved hnormal hdistinct))
  exact {
    bound := hlimit
    saved := hsaved
    draft := hdraft
    normal := hnormal
    distinct := hdistinct
    merged := (SelectionModel.devices_applySort _).trans hmerged
    sorted := hsorted }

theorem Inv.present (inv : s.Inv limit) :
    (s.model.devices.filter (·.present)).Perm (s.inventory.filter (·.present)) := by
  refine (inv.merged.filter _).trans (.of_eq ?_)
  rw [SelectionModel.merged, SelectionModel.present_foldl_addSaved, List.filter_filter]
  simp

theorem selected_take {normalized : List Identity} (hnormal : ∀ identity ∈ normalized, identity.Normal)
    (hnodup : normalized.Nodup) : Selected limit (normalized.take limit) where
  normal identity hidentity := hnormal identity (List.mem_of_mem_take hidentity)
  nodup := hnodup.sublist (List.take_sublist ..)
  length := List.length_take_le ..

theorem nodup_addNormalized {selection normalized : List Identity} (h : normalized.Nodup) :
    (selection.foldl SelectionModel.addNormalized normalized).Nodup := by
  induction selection generalizing normalized with
  | nil => exact h
  | cons identity selection ih =>
    refine ih ?_
    unfold SelectionModel.addNormalized
    dsimp only
    split
    · exact h
    · split
      · exact h
      · rename_i hnew
        exact h.append (List.nodup_singleton _) (by simpa using hnew)

/-- What `setDraftSelected` makes of the draft. -/
theorem setDraftSelected_cases (m : SelectionModel) (identity : Identity) (selected : Bool) :
    (m.setDraftSelected identity selected).1 = m ∨
    (selected = false ∧ (m.setDraftSelected identity selected).1 =
      { m with draftSelection := m.draftSelection.erase (normalizeIdentity identity) }) ∨
    (selected = true ∧ normalizeIdentity identity ∉ m.draftSelection ∧
      m.draftSelection.length ≠ m.selectionLimit ∧ (m.setDraftSelected identity selected).1 =
        { m with draftSelection := m.draftSelection ++ [normalizeIdentity identity] }) := by
  unfold SelectionModel.setDraftSelected
  dsimp only
  split
  next h => exact .inr (.inl ⟨h.1, rfl⟩)
  split
  · exact .inl rfl
  split
  next hselected =>
    split
    · exact .inl rfl
    next hnew =>
      split
      · exact .inl rfl
      next hroom => exact .inr (.inr ⟨hselected, hnew, hroom, rfl⟩)
  · exact .inl rfl

/-- The draft alone changes. -/
theorem Inv.edit {draft : List Identity} (inv : s.Inv limit) (hdraft : Selected limit draft) :
    Inv limit { s with model := { s.model with draftSelection := draft } } :=
  { inv with draft := hdraft }

theorem Selected.erase {draft : List Identity} (h : Selected limit draft) (identity : Identity) :
    Selected limit (draft.erase identity) where
  normal other hother := h.normal other (List.mem_of_mem_erase hother)
  nodup := h.nodup.erase _
  length := (List.length_erase_le ..).trans h.length

theorem Selected.append {draft : List Identity} {identity : Identity} (h : Selected limit draft)
    (hnormal : identity.Normal) (hnew : identity ∉ draft) (hroom : draft.length ≠ limit) :
    Selected limit (draft ++ [identity]) where
  normal other hother := by
    rcases List.mem_append.mp hother with hold | hadded
    · exact h.normal other hold
    · exact List.mem_singleton.mp hadded ▸ hnormal
  nodup := h.nodup.append (List.nodup_singleton _) (by simpa using hnew)
  length := by
    have := h.length
    simp only [List.length_append, List.length_singleton]
    omega

theorem Inv.step {call : SelectionCall} (inv : s.Inv limit) (hallowed : s.Allowed call)
    (hstep : s.step call = some s') : s'.Inv limit := by
  cases call with
  | replaceInventory inventory =>
    obtain rfl := Option.some.inj hstep
    have hnormal : ∀ device ∈ inventory.map fun device : DeviceEntry =>
        { device with identity := normalizeIdentity device.identity }, device.identity.Normal := by
      intro device hdevice
      obtain ⟨entry, -, rfl⟩ := List.mem_map.mp hdevice
      exact normalizeIdentity_normal entry.identity
    refine Inv.merge inv.bound inv.saved inv.draft hnormal ?_ (.refl _)
    -- normal identities are told apart by their keys
    have hids : ((inventory.map fun device : DeviceEntry =>
        { device with identity := normalizeIdentity device.identity }).map (·.identity)).Nodup := by
      rw [List.map_map]
      exact hallowed
    refine List.Nodup.map_on (fun a ha b hb hkey => ?_) (List.Nodup.of_map _ hids)
    exact List.inj_on_of_nodup_map hids ha hb (((hnormal a ha).eq_iff (hnormal b hb)).mpr hkey)
  | loadSavedSelection selection =>
    obtain rfl := Option.some.inj hstep
    have hselected : Selected limit ((selection.foldl SelectionModel.addNormalized []).take
      s.model.selectionLimit) := by
      rw [inv.bound]
      exact selected_take (SelectionModel.normal_addNormalized (by simp)) (nodup_addNormalized .nil)
    exact Inv.merge inv.bound hselected hselected inv.normal inv.distinct inv.present
  | setDraftSelected identity selected =>
    obtain rfl := Option.some.inj hstep
    rcases setDraftSelected_cases s.model identity selected with h | ⟨-, h⟩ | ⟨-, hnew, hroom, h⟩ <;> rw [h]
    · exact inv
    · exact inv.edit (inv.draft.erase _)
    · exact inv.edit (inv.draft.append (normalizeIdentity_normal identity) hnew (inv.bound ▸ hroom))
  | saveSelection =>
    obtain rfl := Option.some.inj hstep
    exact Inv.merge inv.bound inv.draft inv.draft inv.normal inv.distinct inv.present
  | discardChanges =>
    obtain rfl := Option.some.inj hstep
    exact Inv.merge inv.bound inv.saved inv.saved inv.normal inv.distinct inv.present
  | sortDevices column ascending =>
    obtain rfl := Option.some.inj hstep
    have hperm := SelectionModel.devices_applySort
      { s.model with sortColumn := column, sortAscending := ascending }
    have hsorted := SelectionModel.sorted_applySort
      (m := { s.model with sortColumn := column, sortAscending := ascending })
      ((inv.merged.map _).nodup_iff.mpr (nodup_merged inv.saved inv.normal inv.distinct))
    exact { inv with
      merged := hperm.trans inv.merged
      sorted := hsorted }

theorem inv_start (limit : Nat) : (start limit).Inv limit where
  bound := rfl
  saved := ⟨by simp [start], .nil, Nat.zero_le _⟩
  draft := ⟨by simp [start], .nil, Nat.zero_le _⟩
  normal := by simp [start]
  distinct := .nil
  merged := .refl _
  sorted := .nil

theorem inv_of_reaches (run : ReachesBy step Allowed (start limit) s) : s.Inv limit :=
  run.invariant (inv_start limit) Inv.step

-- ---------------------------------------------------------------------------
-- Unsaved changes
-- ---------------------------------------------------------------------------

/-- The saved devices of the draft stand in the order of the saved selection. -/
def Ordered (s : SelectionSession) : Prop :=
  s.model.draftSelection.Pairwise fun left right => left ∈ s.model.savedSelection →
    right ∈ s.model.savedSelection → s.model.savedSelection.idxOf left < s.model.savedSelection.idxOf right

theorem pairwise_idxOf {l : List Identity} (h : l.Nodup) : l.Pairwise fun left right => l.idxOf left <
    l.idxOf right := by
  rw [List.pairwise_iff_getElem]
  intro i j hi hj hij
  rw [h.idxOf_getElem, h.idxOf_getElem]
  exact hij

theorem ordered_of_eq (h : s.model.draftSelection = s.model.savedSelection)
    (hnodup : s.model.savedSelection.Nodup) :
    s.Ordered := by
  unfold Ordered
  rw [h]
  exact (pairwise_idxOf hnodup).imp fun hlt _ _ => hlt

theorem Ordered.step {call : SelectionCall} (ordered : s.Ordered) (inv : s'.Inv limit)
    (hinOrder : s.InOrder call)
    (hstep : s.step call = some s') : s'.Ordered := by
  cases call with
  | setDraftSelected identity selected =>
    obtain rfl := Option.some.inj hstep
    unfold Ordered
    dsimp only
    rcases setDraftSelected_cases s.model identity selected with h | ⟨-, h⟩ | ⟨rfl, hnew, hroom, h⟩ <;> rw [h]
    · exact ordered
    · exact ordered.sublist List.erase_sublist
    · refine List.pairwise_append.mpr ⟨ordered, List.pairwise_singleton .., fun other hother added hadded => ?_⟩
      obtain rfl := List.mem_singleton.mp hadded
      exact fun hsaved hback => hinOrder hback hnew other hother hsaved
  | replaceInventory inventory =>
    obtain rfl := Option.some.inj hstep
    exact ordered
  | sortDevices column ascending =>
    obtain rfl := Option.some.inj hstep
    exact ordered
  | loadSavedSelection selection =>
    obtain rfl := Option.some.inj hstep
    exact ordered_of_eq rfl inv.saved.nodup
  | saveSelection =>
    obtain rfl := Option.some.inj hstep
    exact ordered_of_eq rfl inv.saved.nodup
  | discardChanges =>
    obtain rfl := Option.some.inj hstep
    exact ordered_of_eq rfl inv.saved.nodup

/-- Two selections of the same devices in the same order are equal. -/
theorem Ordered.not_reordered (ordered : s.Ordered) (inv : s.Inv limit) : ¬s.Reordered := by
  rintro ⟨hperm, hne⟩
  have hdraft : s.model.draftSelection.Pairwise fun left right =>
      s.model.savedSelection.idxOf left < s.model.savedSelection.idxOf right := by
    refine ordered.imp_of_mem fun {a b} ha hb hlt => ?_
    exact hlt (hperm.mem_iff.mp ha) (hperm.mem_iff.mp hb)
  refine hne (hperm.eq_of_pairwise ?_ hdraft (pairwise_idxOf inv.saved.nodup))
  intro a b _ _ hab hba
  exact absurd hab (Nat.lt_asymm hba)

theorem Inv.changesSeen_iff (inv : s.Inv limit) : s.ChangesSeen ↔ ¬s.Reordered := by
  have hset : s.model.draftSelection.Perm s.model.savedSelection ↔
      ∀ identity, identity ∈ s.model.draftSelection ↔ identity ∈ s.model.savedSelection :=
    List.perm_ext_iff_of_nodup inv.draft.nodup inv.saved.nodup
  unfold ChangesSeen Reordered
  rw [hset, ← not_forall, SelectionModel.hasUnsavedChanges, decide_eq_true_iff]
  constructor
  · rintro h ⟨hsame, hne⟩
    exact h.mp (Ne.symm hne) hsame
  · intro h
    constructor
    · exact fun hne hsame => h ⟨hsame, Ne.symm hne⟩
    · exact fun hdiffer heq => hdiffer fun identity => by rw [heq]

/-- After any calls the model is consistent, and in the state where `hasUnsavedChanges` is asked
its answer is wrong exactly if the draft is the saved selection in another order; where every
device that is put back stands behind the others it never is. -/
theorem consistent_and_changesSeen (limit : Nat) :
    (∀ s, ReachesBy step Allowed (start limit) s → s.Consistent limit ∧ (s.ChangesSeen ↔ ¬s.Reordered)) ∧
    ∀ s, ReachesBy step (fun s call => s.Allowed call ∧ s.InOrder call) (start limit) s →
      s.Consistent limit ∧ s.ChangesSeen := by
  refine ⟨fun s run => ?_, fun s run => ?_⟩
  · have inv := inv_of_reaches run
    exact ⟨inv.consistent, inv.changesSeen_iff⟩
  · have hkept : s.Inv limit ∧ s.Ordered :=
      run.invariant (I := fun s => s.Inv limit ∧ s.Ordered) ⟨inv_start limit, .nil⟩
        fun ⟨inv, ordered⟩ hok hstep => ⟨inv.step hok.1 hstep, ordered.step (inv.step hok.1 hstep) hok.2 hstep⟩
    exact ⟨hkept.1.consistent, hkept.1.changesSeen_iff.mpr (hkept.2.not_reordered hkept.1)⟩

/-- Two devices are saved, and the second one is taken out of the draft and put back. -/
def toggleSecond : List SelectionCall :=
  [.loadSavedSelection [⟨[65], [66]⟩, ⟨[65], [67]⟩], .setDraftSelected ⟨[65], [67]⟩ false,
    .setDraftSelected ⟨[65], [67]⟩ true]

theorem consistent_and_changesSeen_toggleSecond :
    ((execBy step (fun s call => s.Allowed call ∧ s.InOrder call) (start 2) toggleSecond).getD
    (start 2)).ChangesSeen :=
  ((consistent_and_changesSeen 2).2 _ (.of_isSome_by toggleSecond (by decide +kernel))).2

/-- Two devices are saved, and the first one is taken out of the draft and put back. -/
def toggleFirst : List SelectionCall :=
  [.loadSavedSelection [⟨[65], [66]⟩, ⟨[65], [67]⟩], .setDraftSelected ⟨[65], [66]⟩ false,
    .setDraftSelected ⟨[65], [66]⟩ true]

theorem toggleFirst_unseen : ∃ s, ReachesBy step Allowed (start (2 ^ 64 - 1)) s ∧ ¬s.ChangesSeen := by
  have hany : (execBy step Allowed (start (2 ^ 64 - 1)) toggleFirst).any fun s => decide s.Reordered := by
    decide +kernel
  obtain ⟨s, hexec, hreordered⟩ := (Option.any_eq_true _ _).mp hany
  have run := ReachesBy.of_execBy hexec
  exact ⟨s, run, fun hseen => (inv_of_reaches run).changesSeen_iff.mp hseen (of_decide_eq_true hreordered)⟩

end SelectionSession
end Dmn.Engine
