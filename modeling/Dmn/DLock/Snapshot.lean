import Dmn.DLock.Table
import Mathlib.Data.List.Sort
import Mathlib.Data.Prod.Lex
import Mathlib.Data.String.Basic

/-!
# Snapshots as values

What `withCandidate` makes of an accepted entry, and the translation of a snapshot to
`DLockTablePb` and back. An accepted candidate is appended even when a granted entry of its own
identity overlaps it; an unspecified state or terminal reason comes back as the last one declared.
-/

namespace Dmn.DLock

def Entry.Ordered (a b : Entry) : Prop := a.canonicalKey ≤ b.canonicalKey

instance : DecidableRel Entry.Ordered := fun a b =>
  inferInstanceAs (Decidable (a.canonicalKey ≤ b.canonicalKey))

instance : Std.Total Entry.Ordered := ⟨fun a b => le_total a.canonicalKey b.canonicalKey⟩

instance : IsTrans Entry Entry.Ordered := ⟨fun _ _ _ hab hbc => le_trans (α := Entry.Key) hab hbc⟩

namespace TableSnapshot

theorem canonicalize_perm (t : TableSnapshot) : t.canonicalize.entries.Perm t.entries :=
  List.perm_insertionSort Entry.Ordered t.entries

theorem canonicalize_ordered (t : TableSnapshot) :
    t.canonicalize.entries.Pairwise Entry.Ordered :=
  List.pairwise_insertionSort Entry.Ordered t.entries

end TableSnapshot

/-! ## A candidate -/

/-- What `validate` refuses of a pair. -/
def Entry.Clashes (lhs rhs : Entry) : Prop :=
  lhs.domain = rhs.domain ∧ lhs.granted ∧ rhs.granted ∧ lhs.range.overlaps rhs.range

theorem Entry.Clashes.symm {lhs rhs : Entry} (clash : lhs.Clashes rhs) : rhs.Clashes lhs := by
  obtain ⟨domain, left, right, overlaps⟩ := clash
  exact ⟨domain.symm, right, left, by rwa [Range.overlaps_comm]⟩

namespace TableSnapshot

theorem noGrantedOverlap_iff (entries : List Entry) :
    noGrantedOverlap entries = true ↔ entries.Pairwise fun a b => ¬ a.Clashes b := by
  induction entries with
  | nil => simp [noGrantedOverlap]
  | cons e rest ih =>
    simp only [noGrantedOverlap, Bool.and_eq_true, List.all_eq_true, ih, List.pairwise_cons]
    refine and_congr_left fun _ => forall₂_congr fun other _ => ?_
    simp only [Entry.Clashes, Bool.not_eq_true', Bool.and_eq_false_iff, beq_eq_false_iff_ne]
    grind

theorem noGrantedOverlap_perm {entries others : List Entry} (same : entries.Perm others) :
    noGrantedOverlap entries = noGrantedOverlap others := by
  rw [Bool.eq_iff_iff, noGrantedOverlap_iff, noGrantedOverlap_iff]
  exact same.pairwise_iff fun free clash => free clash.symm

theorem validate_canonicalize (t : TableSnapshot) : t.canonicalize.validate = t.validate := by
  have same := t.canonicalize_perm
  unfold validate
  rw [noGrantedOverlap_perm same, same.all_eq]
  rfl

/-- `classifyGrantCandidate` with its loop read as what it compares. -/
theorem canAcceptEntry_iff (t : TableSnapshot) (candidate : Entry) :
    t.canAcceptEntry candidate = true ↔ candidate.isValid ∧ candidate.range.isValid ∧
      candidate.domain = t.domain ∧ ∀ e ∈ t.entries,
        ¬ (e.requestId = candidate.requestId ∧ e.sessionId = candidate.sessionId) →
          ¬ e.Clashes candidate := by
  unfold canAcceptEntry classifyGrantCandidate
  split
  · rename_i invalid
    grind
  · split
    · simp_all
    · split
      · simp_all [conflicts, Entry.Clashes]
        grind
      · simp_all [conflicts, Entry.Clashes]
        grind

theorem withCandidate_accepted {t : TableSnapshot} {candidate : Entry}
    (accepted : t.canAcceptEntry candidate = true) :
    t.withCandidate candidate = canonicalize { t with
      entries := t.entries ++ [candidate]
      tableVersion := next t.tableVersion
      nextSequence := max t.nextSequence (next candidate.sequence) } := by
  have ok : t.classifyGrantCandidate candidate = .ok := by simpa [canAcceptEntry] using accepted
  rw [withCandidate, if_neg (by simp [ok])]

theorem next_eq_succ_iff (counter : Nat) : next counter = counter + 1 ↔ counter + 1 < 2 ^ 64 := by
  unfold next
  omega

/-- A candidate is compared with the entries of other requests and sessions only, and what it is
appended to keeps those of its own. -/
theorem validate_withCandidate_iff {t : TableSnapshot} {candidate : Entry}
    (valid : t.validate = true) (accepted : t.canAcceptEntry candidate = true) :
    (t.withCandidate candidate).validate = true ↔ ∀ e ∈ t.entries,
      e.requestId = candidate.requestId → e.sessionId = candidate.sessionId →
        ¬ e.Clashes candidate := by
  obtain ⟨wellFormed, range, domain, others⟩ := (canAcceptEntry_iff t candidate).mp accepted
  rw [withCandidate_accepted accepted, validate_canonicalize]
  simp only [validate, Bool.and_eq_true, decide_eq_true_eq, List.all_eq_true, beq_iff_eq,
    noGrantedOverlap_iff, List.forall_mem_append, List.forall_mem_singleton,
    List.pairwise_append, List.pairwise_singleton, true_and] at valid ⊢
  obtain ⟨⟨named, entries⟩, apart⟩ := valid
  refine ⟨fun h e he _ _ => h.2.2 e he, fun own => ⟨⟨named, entries, ⟨wellFormed, domain⟩, range⟩,
    apart, fun e he => ?_⟩⟩
  by_cases same : e.requestId = candidate.requestId ∧ e.sessionId = candidate.sessionId
  · exact own e he same.1 same.2
  · exact others e he same

/-- What an accepted candidate should make of a table. -/
def Extends (result t : TableSnapshot) (candidate : Entry) : Prop :=
  result.validate = true ∧ result.entries.Perm (t.entries ++ [candidate]) ∧
    result.entries.Pairwise Entry.Ordered ∧ result.tableVersion = t.tableVersion + 1

instance (result t : TableSnapshot) (candidate : Entry) :
    Decidable (result.Extends t candidate) := by
  unfold Extends
  infer_instance

/-- The candidate is granted over a granted entry of its own request and session, or the version
is the last one. -/
theorem withCandidate_extends (t : TableSnapshot) (candidate : Entry)
    (valid : t.validate = true) (accepted : t.canAcceptEntry candidate = true) :
    (t.withCandidate candidate).Extends t candidate ↔
      (∀ e ∈ t.entries, e.requestId = candidate.requestId → e.sessionId = candidate.sessionId →
        ¬ (e.granted ∧ candidate.granted ∧ e.range.overlaps candidate.range)) ∧
      t.tableVersion + 1 < 2 ^ 64 := by
  have version : (t.withCandidate candidate).tableVersion = next t.tableVersion := by
    rw [withCandidate_accepted accepted]
    rfl
  have held : (t.withCandidate candidate).entries.Perm (t.entries ++ [candidate]) ∧
      (t.withCandidate candidate).entries.Pairwise Entry.Ordered := by
    rw [withCandidate_accepted accepted]
    exact ⟨canonicalize_perm _, canonicalize_ordered _⟩
  -- every entry that the candidate was compared with or not is of the table's domain
  have oneDomain : ∀ e ∈ t.entries, e.domain = candidate.domain := by
    intro e he
    have all := (Bool.and_eq_true_iff.mp (Bool.and_eq_true_iff.mp valid).1).2
    have same := List.all_eq_true.mp all e he
    rw [((canAcceptEntry_iff t candidate).mp accepted).2.2.1]
    simp_all
  rw [Extends, validate_withCandidate_iff valid accepted, version, next_eq_succ_iff]
  constructor
  · rintro ⟨own, -, -, later⟩
    exact ⟨fun e he request session overlap =>
      own e he request session ⟨oneDomain e he, overlap⟩, later⟩
  · rintro ⟨own, later⟩
    exact ⟨fun e he request session clash => own e he request session clash.2, held.1, held.2,
      later⟩

theorem withCandidate_extends_first :
    let t : TableSnapshot := { domain := "d" }
    let candidate : Entry := { domain := "d", requestId := "r", granted := true }
    (t.withCandidate candidate).Extends t candidate := by
  intro t candidate
  exact (withCandidate_extends t candidate (by decide) (by decide)).mpr ⟨by simp [t], by decide⟩

/-- A granted request that is accepted again over its own grant. -/
theorem withCandidate_grantedTwice :
    ¬ ∀ (t : TableSnapshot) (candidate : Entry), t.validate = true →
      t.canAcceptEntry candidate = true → (t.withCandidate candidate).Extends t candidate := by
  intro keeps
  let grant : Entry := { domain := "d", requestId := "r", granted := true }
  let t : TableSnapshot := { domain := "d", entries := [grant] }
  have kept : (t.withCandidate grant).Extends t grant := keeps t grant (by decide) (by decide)
  have invalid : (t.withCandidate grant).validate = false := by decide
  exact absurd kept.1 (by simp [invalid])

end TableSnapshot

/-! ## The wire -/

inductive DLockEntryStatePb where
  | unspecified
  | waiting
  | granted
  | released
  | cancelled
  | expired
  | error
  deriving DecidableEq, Repr

inductive DLockTerminalReasonPb where
  | unspecified
  | none
  | released
  | cancelled
  | timeout
  | expired
  | shutdown
  deriving DecidableEq, Repr

structure DLockRangePb where
  start : Int := 0
  «end» : Int := 0
  deriving DecidableEq, Repr

/-- A field of a message type may be absent; it then reads as the default message. -/
structure DLockEntryPb where
  domain : String := ""
  requestId : String := ""
  sessionId : String := ""
  ownerId : String := ""
  range : Option DLockRangePb := none
  priority : Int := 0
  sequence : Nat := 0
  fence : Nat := 0
  state : DLockEntryStatePb := .unspecified
  terminalReason : DLockTerminalReasonPb := .unspecified
  acquireDeadlineTicks : Int := 0
  leaseDeadlineTicks : Int := 0
  waiting : Bool := false
  granted : Bool := false
  deriving DecidableEq, Repr

structure DLockTablePb where
  domain : String := ""
  schemaVersion : Nat := 0
  protocolVersion : Nat := 0
  publisherIncarnation : Nat := 0
  baseTableVersion : Nat := 0
  tableVersion : Nat := 0
  nextSequence : Nat := 0
  nextFencingToken : Nat := 0
  entries : List DLockEntryPb := []
  deriving DecidableEq

def EntryState.toProto (state : EntryState) : DLockEntryStatePb :=
  if state = .waiting then .waiting
  else if state = .granted then .granted
  else if state = .released then .released
  else if state = .cancelled then .cancelled
  else if state = .expired then .expired
  else .error

def EntryState.fromProto (state : DLockEntryStatePb) : EntryState :=
  if state = .waiting then .waiting
  else if state = .granted then .granted
  else if state = .released then .released
  else if state = .cancelled then .cancelled
  else if state = .expired then .expired
  else .error

def TerminalReason.toProto (reason : TerminalReason) : DLockTerminalReasonPb :=
  if reason = .none then .none
  else if reason = .released then .released
  else if reason = .cancelled then .cancelled
  else if reason = .timeout then .timeout
  else if reason = .expired then .expired
  else .shutdown

def TerminalReason.fromProto (reason : DLockTerminalReasonPb) : TerminalReason :=
  if reason = .none then .none
  else if reason = .released then .released
  else if reason = .cancelled then .cancelled
  else if reason = .timeout then .timeout
  else if reason = .expired then .expired
  else .shutdown

def Entry.toProto (entry : Entry) : DLockEntryPb where
  domain := entry.domain
  requestId := entry.requestId
  sessionId := entry.sessionId
  ownerId := entry.ownerId
  range := some { start := entry.range.start, «end» := entry.range.end }
  priority := entry.priority
  sequence := entry.sequence
  fence := entry.fence
  state := entry.state.toProto
  terminalReason := entry.terminalReason.toProto
  acquireDeadlineTicks := entry.acquireDeadlineTicks
  leaseDeadlineTicks := entry.leaseDeadlineTicks
  waiting := entry.waiting
  granted := entry.granted

def Entry.fromProto (entry : DLockEntryPb) : Entry where
  domain := entry.domain
  requestId := entry.requestId
  sessionId := entry.sessionId
  ownerId := entry.ownerId
  range := { start := (entry.range.getD {}).start, «end» := (entry.range.getD {}).end }
  priority := entry.priority
  sequence := entry.sequence
  fence := entry.fence
  state := EntryState.fromProto entry.state
  terminalReason := TerminalReason.fromProto entry.terminalReason
  acquireDeadlineTicks := entry.acquireDeadlineTicks
  leaseDeadlineTicks := entry.leaseDeadlineTicks
  waiting := entry.waiting
  granted := entry.granted

namespace TableSnapshot

def toProto (t : TableSnapshot) : DLockTablePb where
  domain := t.domain
  schemaVersion := t.schemaVersion
  protocolVersion := t.protocolVersion
  publisherIncarnation := t.publisherIncarnation
  baseTableVersion := t.baseTableVersion
  tableVersion := t.tableVersion
  nextSequence := t.nextSequence
  nextFencingToken := t.nextFencingToken
  entries :=
    (t.entries.insertionSort fun a b => a.canonicalKey ≤ b.canonicalKey).map Entry.toProto

def fromProto (table : DLockTablePb) : TableSnapshot :=
  canonicalize
    { domain := table.domain
      schemaVersion := table.schemaVersion
      protocolVersion := table.protocolVersion
      publisherIncarnation := table.publisherIncarnation
      baseTableVersion := table.baseTableVersion
      tableVersion := table.tableVersion
      nextSequence := table.nextSequence
      nextFencingToken := table.nextFencingToken
      entries := table.entries.map Entry.fromProto }

end TableSnapshot

theorem EntryState.fromProto_toProto (state : EntryState) :
    EntryState.fromProto state.toProto = state ↔ state ≠ .unspecified := by
  cases state <;> decide

theorem TerminalReason.fromProto_toProto (reason : TerminalReason) :
    TerminalReason.fromProto reason.toProto = reason ↔ reason ≠ .unspecified := by
  cases reason <;> decide

/-- Neither is the value that the translation has no case for. -/
def Entry.Specified (e : Entry) : Prop :=
  e.state ≠ .unspecified ∧ e.terminalReason ≠ .unspecified

theorem Entry.fromProto_toProto (e : Entry) :
    Entry.fromProto e.toProto = { e with
      state := EntryState.fromProto e.state.toProto
      terminalReason := TerminalReason.fromProto e.terminalReason.toProto } := rfl

theorem Entry.fromProto_eq_iff (e : Entry) : Entry.fromProto e.toProto = e ↔ e.Specified := by
  rw [Entry.fromProto_toProto, Entry.Specified, ← EntryState.fromProto_toProto,
    ← TerminalReason.fromProto_toProto]
  exact ⟨fun h => ⟨congrArg Entry.state h, congrArg Entry.terminalReason h⟩,
    fun ⟨state, reason⟩ => by rw [state, reason]⟩

namespace TableSnapshot

/-- The wire keeps the order of the entries, so the sort on the way back finds nothing to do. -/
theorem fromProto_toProto (t : TableSnapshot) :
    fromProto t.toProto = { t with
      entries := t.canonicalize.entries.map fun e => Entry.fromProto e.toProto } := by
  have ordered : ((t.canonicalize.entries.map Entry.toProto).map Entry.fromProto).Pairwise
      Entry.Ordered := by
    rw [List.map_map, List.pairwise_map]
    exact t.canonicalize_ordered
  calc fromProto t.toProto
      = { t with entries := ((t.canonicalize.entries.map Entry.toProto).map
            Entry.fromProto).insertionSort Entry.Ordered } := rfl
    _ = _ := by rw [ordered.insertionSort_eq, List.map_map]; rfl

theorem toProto_perm {t : TableSnapshot} {entries : List Entry}
    (distinct : (t.entries.map Entry.canonicalKey).Nodup) (same : entries.Perm t.entries) :
    ({ t with entries } : TableSnapshot).toProto = t.toProto := by
  have sorted : entries.insertionSort Entry.Ordered = t.entries.insertionSort Entry.Ordered := by
    refine List.Perm.eq_of_pairwise (fun a b ha hb hab hba => ?_)
      (List.pairwise_insertionSort Entry.Ordered entries)
      (List.pairwise_insertionSort Entry.Ordered t.entries)
      ((List.perm_insertionSort _ _).trans (same.trans (List.perm_insertionSort _ _).symm))
    exact List.inj_on_of_nodup_map distinct
      (same.mem_iff.mp ((List.mem_insertionSort _).mp ha)) ((List.mem_insertionSort _).mp hb)
      (le_antisymm hab hba)
  calc ({ t with entries } : TableSnapshot).toProto
      = { t.toProto with
          entries := (entries.insertionSort Entry.Ordered).map Entry.toProto } := rfl
    _ = t.toProto := by rw [sorted]; rfl

/-- With distinct keys there is one canonical order, and only an entry whose state or reason is
unspecified changes on the way. -/
theorem roundTrip (t : TableSnapshot) (distinct : (t.entries.map Entry.canonicalKey).Nodup) :
    (fromProto t.toProto = t.canonicalize ∧
      ∀ entries, entries.Perm t.entries →
        ({ t with entries } : TableSnapshot).toProto = t.toProto) ↔
      ∀ e ∈ t.entries, e.state ≠ .unspecified ∧ e.terminalReason ≠ .unspecified := by
  have entries : fromProto t.toProto = t.canonicalize ↔
      ∀ e ∈ t.entries, Entry.fromProto e.toProto = e := by
    rw [fromProto_toProto]
    constructor
    · intro back e he
      have mapped := congrArg TableSnapshot.entries back
      have fixed : t.canonicalize.entries.map (fun e => Entry.fromProto e.toProto) =
          t.canonicalize.entries.map id := by rw [List.map_id]; exact mapped
      exact List.map_inj_left.mp fixed e (t.canonicalize_perm.mem_iff.mpr he)
    · intro fixed
      have mapped : t.canonicalize.entries.map (fun e => Entry.fromProto e.toProto) =
          t.canonicalize.entries := by
        conv_rhs => rw [← List.map_id t.canonicalize.entries]
        exact List.map_congr_left fun e he => fixed e (t.canonicalize_perm.mem_iff.mp he)
      rw [mapped]
      rfl
  rw [entries, and_iff_left fun others same => toProto_perm distinct same]
  exact forall₂_congr fun e _ => e.fromProto_eq_iff

theorem roundTrip_granted :
    let t : TableSnapshot := { entries := [{ state := .granted }] }
    fromProto t.toProto = t.canonicalize := by
  intro t
  exact ((roundTrip t (by decide)).mpr (by decide)).1

/-- An entry without a state comes back as an error, one without a reason as ended by a shutdown. -/
theorem roundTrip_unspecified :
    ¬ ∀ t : TableSnapshot, (t.entries.map Entry.canonicalKey).Nodup →
      fromProto t.toProto = t.canonicalize ∧
        ∀ entries, entries.Perm t.entries →
          ({ t with entries } : TableSnapshot).toProto = t.toProto := by
  intro back
  let t : TableSnapshot :=
    { entries := [{ state := .unspecified, terminalReason := .unspecified }] }
  have changed : fromProto t.toProto =
      { t with entries := [{ state := .error, terminalReason := .shutdown }] } := by decide
  exact absurd (changed.symm.trans (back t (by decide)).1) (by decide)

end TableSnapshot
end Dmn.DLock
