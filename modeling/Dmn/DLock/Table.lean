import Mathlib.Data.List.Sort
import Mathlib.Data.Prod.Lex
import Mathlib.Data.String.Basic

/-!
# The lock table

`Dmn_DLock_Range`, `Dmn_DLock_Entry` and the checks and updates of
`Dmn_DLock_TableSnapshot`. Endpoints, priorities and ticks are only compared
or copied; the 64-bit counters wrap.
-/

namespace Dmn.DLock

inductive ResultCode where
  | ok
  | invalidState
  | invalidRange
  | conflict
  | timeout
  | cancelled
  | shutdown
  | noWait
  | error
  deriving DecidableEq, Repr

structure Range where
  start : Int := 0
  «end» : Int := 0
  deriving DecidableEq, Repr

namespace Range

def isValid (r : Range) : Bool := 0 ≤ r.start && r.start ≤ r.end

def overlaps (r other : Range) : Bool :=
  if !r.isValid || !other.isValid then false
  else !(r.end < other.start || other.end < r.start)

theorem overlaps_comm (r other : Range) : r.overlaps other = other.overlaps r := by
  simp only [overlaps]
  cases r.isValid <;> cases other.isValid <;> simp [Bool.or_comm]

end Range

structure Result where
  code : ResultCode := .invalidState
  range : Range := {}
  requestId : String := ""
  message : String := ""
  deriving DecidableEq, Repr

structure RequestOptions where
  requestId : String := ""
  leaseTicks : Int := 0
  wait : Bool := true
  retriesAllowed : Bool := false
  noWait : Bool := false
  deriving DecidableEq, Repr

inductive EntryState where
  | unspecified
  | waiting
  | granted
  | released
  | cancelled
  | expired
  | error
  deriving DecidableEq, Repr

inductive TerminalReason where
  | unspecified
  | none
  | released
  | cancelled
  | timeout
  | expired
  | shutdown
  deriving DecidableEq, Repr

structure Entry where
  domain : String := ""
  requestId : String := ""
  sessionId : String := ""
  ownerId : String := ""
  range : Range := {}
  priority : Int := 0
  sequence : Nat := 0
  fence : Nat := 0
  state : EntryState := .waiting
  terminalReason : TerminalReason := .none
  acquireDeadlineTicks : Int := 0
  leaseDeadlineTicks : Int := 0
  waiting : Bool := false
  granted : Bool := false
  deriving DecidableEq, Repr

namespace Entry

abbrev Key := Int ×ₗ Int ×ₗ Int ×ₗ Nat ×ₗ String

def canonicalKey (e : Entry) : Key :=
  toLex (e.range.start, toLex (e.range.end, toLex (e.priority, toLex (e.sequence, e.requestId))))

def isValid (e : Entry) : Bool :=
  e.domain ≠ "" && e.range.isValid && (e.requestId ≠ "" || e.sessionId ≠ "")

end Entry

/-- The successor of a 64-bit counter. -/
def next (counter : Nat) : Nat := (counter + 1) % 2 ^ 64

structure TableSnapshot where
  domain : String := ""
  schemaVersion : Nat := 1
  protocolVersion : Nat := 1
  publisherIncarnation : Nat := 0
  baseTableVersion : Nat := 0
  tableVersion : Nat := 0
  nextSequence : Nat := 0
  nextFencingToken : Nat := 0
  entries : List Entry := []
  deriving DecidableEq

namespace TableSnapshot

def canonicalize (t : TableSnapshot) : TableSnapshot :=
  { t with entries := t.entries.insertionSort fun a b => a.canonicalKey ≤ b.canonicalKey }

/-- The nested loops of `validate`: no two granted entries of one domain overlap. -/
def noGrantedOverlap : List Entry → Bool
  | [] => true
  | lhs :: rest =>
    rest.all (fun rhs => !(lhs.domain == rhs.domain &&
      (lhs.granted && rhs.granted && lhs.range.overlaps rhs.range))) && noGrantedOverlap rest

def validate (t : TableSnapshot) : Bool :=
  t.domain ≠ "" &&
    t.entries.all (fun e => e.isValid && e.domain == t.domain && e.range.isValid) &&
    noGrantedOverlap t.entries

/-- The loop of `classifyGrantCandidate`: an entry of the same identity is skipped. -/
def conflicts (candidate : Entry) (e : Entry) : Bool :=
  !(e.requestId == candidate.requestId && e.sessionId == candidate.sessionId) &&
    (e.granted && candidate.granted && e.domain == candidate.domain &&
      e.range.overlaps candidate.range)

def classifyGrantCandidate (t : TableSnapshot) (candidate : Entry) : ResultCode :=
  if !candidate.isValid || !candidate.range.isValid then .invalidRange
  else if candidate.domain ≠ t.domain then .invalidState
  else if t.entries.any (conflicts candidate) then .conflict
  else .ok

def canAcceptEntry (t : TableSnapshot) (candidate : Entry) : Bool :=
  t.classifyGrantCandidate candidate == .ok

def withCandidate (t : TableSnapshot) (candidate : Entry) : TableSnapshot :=
  if t.classifyGrantCandidate candidate ≠ .ok then {}
  else canonicalize { t with
    entries := t.entries ++ [candidate]
    tableVersion := next t.tableVersion
    nextSequence := max t.nextSequence (next candidate.sequence) }

def isGrantedForRange (t : TableSnapshot) (range : Range) : Bool :=
  t.entries.any fun e => e.granted && e.range.overlaps range

end TableSnapshot
end Dmn.DLock
