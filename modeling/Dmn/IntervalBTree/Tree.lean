import Dmn.IntervalBTree.Node
import Mathlib

/-!
# The interval B-tree

`Dmn_IntervalBTree`: its state, its public mutations and its queries. A
mutation gives the tree it leaves, the state-change callbacks it invoked and
what it returned or threw.
-/

namespace Dmn.IntervalBTree

open Lib (weave)

structure CallbackRegistration (α : Type) where
  id : Nat
  «matches» : α → Bool
  context : Nat
  callback : Nat → α → OverlayState → OverlayState → CallbackOutcome

structure Tree (α : Type) where
  canonicalComparator : Option (Range → Range → Bool) := none
  priorityEvaluator : Option (α → α → Bool) := none
  suppressCallbacks : Bool := false
  root : Option (Node α) := none
  size : Nat := 0
  nextOrdinal : Nat := 0
  callbackRegistrations : List (CallbackRegistration α) := []
  nextCallbackRegistrationId : Nat := 1

variable {α : Type}

/-- Equal ranges in insertion order; others by the comparator, then by their
endpoints. -/
def entryLess (canonicalComparator : Option (Range → Range → Bool)) (lhs rhs : Entry α) : Bool :=
  if lhs.range.start = rhs.range.start ∧ lhs.range.end = rhs.range.end then
    lhs.ordinal < rhs.ordinal
  else
    match canonicalComparator with
    | some less =>
      if less lhs.range rhs.range then true
      else if less rhs.range lhs.range then false
      else defaultRangeLess lhs.range rhs.range
    | none => defaultRangeLess lhs.range rhs.range

-- ---------------------------------------------------------------------------
-- Node traversals
-- ---------------------------------------------------------------------------

namespace Node

mutual

/-- Rewrite every entry in place. -/
def mapEntries (f : Entry α → Entry α) : Node α → Node α
  | .node es cs m leaf => .node (es.map f) (mapChildren f cs) m leaf
def mapChildren (f : Entry α → Entry α) : List (Node α) → List (Node α)
  | [] => []
  | c :: cs => c.mapEntries f :: mapChildren f cs
end

mutual
def hasOverlapInSubtree (range : Range) : Node α → Bool
  | .node es cs m leaf =>
    if m < range.start then false
    else if leaf then es.any (·.range.overlaps range)
    else
      let found := hasOverlapInChildren range cs
      (es.zip found).any (fun p => p.2 || p.1.range.overlaps range) || found.getLast?.getD false
def hasOverlapInChildren (range : Range) : List (Node α) → List Bool
  | [] => []
  | c :: cs => c.hasOverlapInSubtree range :: hasOverlapInChildren range cs
end

/-- The visits below the children, each separator visited when it overlaps. -/
def weaveVisits (range : Range) : List (Entry α) → List (List (Entry α)) → List (Entry α)
  | [], visits => visits.getLast?.getD []
  | e :: es, v :: vs =>
    v ++ (if e.range.overlaps range then [e] else []) ++ weaveVisits range es vs
  | _ :: _, [] => []

mutual

/-- The entries handed to the visitor, in order. -/
def visitOverlappingInOrder (range : Range) : Node α → List (Entry α)
  | .node es cs m leaf =>
    if m < range.start then []
    else if leaf then es.filter (·.range.overlaps range)
    else weaveVisits range es (visitOverlappingInChildren range cs)
def visitOverlappingInChildren (range : Range) : List (Node α) → List (List (Entry α))
  | [] => []
  | c :: cs => c.visitOverlappingInOrder range :: visitOverlappingInChildren range cs
end

end Node

inductive Exn where
  | invalidArgument (what : String)
  | callback
  | overflowError (what : String)
  deriving DecidableEq, Repr

/-- One invocation of an entry's state-change callback. -/
structure StateChange (α : Type) where
  entry : Entry α
  oldState : OverlayState
  newState : OverlayState

structure Outcome (α β : Type) where
  tree : Tree α
  calls : List (StateChange α) := []
  result : Except Exn β

structure TopologyResult (α : Type) where
  status : OverlayTopology := .clear
  isTop : Bool := true
  overlappingEntries : List (Range × α) := []

/-- The public mutations; `remove` is `removeByRange`. -/
inductive Op (α : Type) where
  | add (range : Range) (value : α) (onStateChange : Option (StateChangeCallback α))
  | addWithTopology (range : Range) (value : α) (onStateChange : Option (StateChangeCallback α))
  | removeByRange (range : Range) (matcher : Option (α → Bool))
  | removeAllOverlapping (range : Range)
  | clear
  | enumerateCanonicalMove (duplicateOrder : Option (α → α → Bool))
  | reconstructFromCanonical (entries : List (Range × α))
  | registerStateCallback (accepts : α → Bool) (context : Nat)
      (callback : Nat → α → OverlayState → OverlayState → CallbackOutcome)
  | unregisterStateCallback (registration : Nat)

/-- What a mutation returns. -/
inductive Reply (α : Type) where
  | done
  | flag (value : Bool)
  | topology (inserted : Bool) (result : TopologyResult α)
  | count (value : Nat)
  | entries (values : List (Range × α))
  | id (value : Nat)

def Outcome.reply (o : Outcome α β) (f : β → Reply α) : Outcome α (Reply α) :=
  { tree := o.tree, calls := o.calls, result := o.result.map f }

namespace Tree

/-- The entries in canonical order. -/
def entries (t : Tree α) : List (Entry α) :=
  match t.root with
  | some root => root.collectEntriesInOrder
  | none => []

abbrev less (t : Tree α) : Entry α → Entry α → Bool := entryLess t.canonicalComparator

-- ---------------------------------------------------------------------------
-- Overlay states
-- ---------------------------------------------------------------------------

/-- The other entries that overlap the candidate. -/
def overlapsOf (entries : List (Entry α)) (candidate : Entry α) : List (Entry α) :=
  entries.filter fun e => e.ordinal != candidate.ordinal && candidate.range.overlaps e.range

def calculateState (t : Tree α) (candidate : Entry α) : OverlayState :=
  let overlaps := overlapsOf t.entries candidate
  { topology := classifyTopology candidate.range (overlaps.map Entry.range)
    isTop := match t.priorityEvaluator with
      | some higher => !overlaps.any fun e => higher e.value candidate.value
      | none => true }

def setState (t : Tree α) (ordinal : Nat) (state : OverlayState) : Tree α :=
  { t with root := t.root.map (·.mapEntries fun e =>
      if e.ordinal = ordinal then { e with state } else e) }

/-- The first loop of `updateStatesAndNotify`: the new states are stored, the
transitions collected. -/
def updateStates : Tree α → List (Entry α × OverlayState) → Tree α × List (StateChange α)
  | t, [] => (t, [])
  | t, (entry, oldState) :: rest =>
    let newState := t.calculateState entry
    let (t, transitions) := updateStates (t.setState entry.ordinal newState) rest
    (t, if oldState ≠ newState then ⟨entry, oldState, newState⟩ :: transitions else transitions)

/-- The second loop: the callbacks up to the first that throws, and whether
one did. -/
def dispatch : List (StateChange α) → List (StateChange α) × Bool
  | [] => ([], false)
  | change :: rest =>
    match change.entry.onStateChange with
    | none => dispatch rest
    | some callback =>
      match callback change.entry.range change.entry.value change.oldState change.newState with
      | .returned => let (calls, threw) := dispatch rest; (change :: calls, threw)
      | .threw => ([change], true)

def updateStatesAndNotify (t : Tree α) (oldStates : List (Entry α × OverlayState)) (value : β) :
    Outcome α β :=
  let (tree, transitions) := t.updateStates oldStates
  if t.suppressCallbacks then { tree, result := .ok value }
  else
    let (calls, threw) := dispatch transitions
    { tree, calls, result := if threw then .error .callback else .ok value }

-- ---------------------------------------------------------------------------
-- Mutations
-- ---------------------------------------------------------------------------

/-- The structural part of `insertEntry`. -/
def insertRoot (t : Tree α) (entry : Entry α) : Option (Node α) := do
  let root := t.root.getD (.node [] [] Int64.minValue true)
  let root ←
    if root.entries.length = Node.maxKeys then
      (Node.node [] [root] Int64.minValue false).splitChild 0
    else some root
  root.insertNonFull t.less entry (root.height + 1)

def insertEntry (t : Tree α) (entry : Entry α) : Option (Outcome α Bool) := do
  if !entry.range.isValid then
    return { tree := t, result := .error (.invalidArgument "range is invalid") }
  let oldStates := (t.entries.filter fun e => e.range.overlaps entry.range).map fun e => (e, e.state)
  let root ← t.insertRoot entry
  let inserted := { t with root := some root, nextOrdinal := t.nextOrdinal + 1, size := t.size + 1 }
  let inserted := inserted.setState entry.ordinal (inserted.calculateState entry)
  return inserted.updateStatesAndNotify oldStates true

def add (t : Tree α) (range : Range) (value : α) (onStateChange : Option (StateChangeCallback α)) :
    Option (Outcome α Bool) :=
  if !range.isValid then
    some { tree := t, result := .error (.invalidArgument "range is invalid") }
  else t.insertEntry { range, value, ordinal := t.nextOrdinal, onStateChange }

def findExactEntry (t : Tree α) (range : Range) (matcher : Option (α → Bool)) : Option (Entry α) :=
  t.entries.find? fun e => e.range.start == range.start && e.range.end == range.end &&
    match matcher with
    | some accepts => accepts e.value
    | none => true

def eraseEntry (t : Tree α) (target : Entry α) : Option (Tree α) := do
  match t.root with
  | none => return t
  | some root =>
    let root ← root.eraseEntry t.less target (root.height + 1)
    let root :=
      if root.entries.isEmpty then (if root.isLeaf then none else root.children.head?) else some root
    return { t with root, size := t.size - 1 }

def removeByRange (t : Tree α) (range : Range) (matcher : Option (α → Bool)) :
    Option (Outcome α Bool) := do
  if !range.isValid then
    return { tree := t, result := .error (.invalidArgument "range is invalid") }
  match t.findExactEntry range matcher with
  | none => return { tree := t, result := .ok false }
  | some target =>
    let oldStates := (t.entries.filter fun e =>
      e.ordinal != target.ordinal && e.range.overlaps target.range).map fun e => (e, e.state)
    let erased ← t.eraseEntry target
    return erased.updateStatesAndNotify oldStates true

def removeAllOverlapping (t : Tree α) (range : Range) : Option (Outcome α Nat) := do
  if !range.isValid then
    return { tree := t, result := .error (.invalidArgument "range is invalid") }
  let targets := t.entries.filter fun e => e.range.overlaps range
  if targets.isEmpty then return { tree := t, result := .ok 0 }
  let oldStates := (t.entries.filter fun e =>
    !targets.any (·.ordinal == e.ordinal) &&
      targets.any fun target => e.range.overlaps target.range).map fun e => (e, e.state)
  let erased ← targets.foldlM eraseEntry t
  return erased.updateStatesAndNotify oldStates targets.length

def clear (t : Tree α) : Tree α := { t with root := none, size := 0, nextOrdinal := 0 }

/-- The order of the canonical enumerations. -/
def enumerationLess (t : Tree α) (duplicateOrder : Option (α → α → Bool)) (lhs rhs : Entry α) :
    Bool :=
  if lhs.range.start = rhs.range.start ∧ lhs.range.end = rhs.range.end then
    match duplicateOrder with
    | some less => less lhs.value rhs.value
    | none => lhs.ordinal < rhs.ordinal
  else t.less lhs rhs

/-- A stable sort of the entries already in canonical order. -/
def enumerateCanonical (t : Tree α) (duplicateOrder : Option (α → α → Bool)) : List (Range × α) :=
  (t.entries.insertionSort fun a b => !t.enumerationLess duplicateOrder b a).map fun e =>
    (e.range, e.value)

def enumerateCanonicalMove (t : Tree α) (duplicateOrder : Option (α → α → Bool)) :
    Outcome α (List (Range × α)) :=
  { tree := t.clear, result := .ok (t.enumerateCanonical duplicateOrder) }

/-- The callback of the first registration that accepts the value, and its id. -/
def callbackForReconstruction (t : Tree α) (value : α) : Option (StateChangeCallback α) × Nat :=
  match t.callbackRegistrations.find? (·.matches value) with
  | some registration =>
    (some fun _ item oldState newState =>
      registration.callback registration.context item oldState newState, registration.id)
  | none => (none, 0)

def rebuild (t : Tree α) : Tree α → List (Range × α) → Option (Tree α)
  | rebuilt, [] => some rebuilt
  | rebuilt, (range, value) :: rest => do
    let (onStateChange, callbackRegistrationId) := t.callbackForReconstruction value
    let outcome ← rebuilt.insertEntry
      { range, value, ordinal := rebuilt.nextOrdinal, onStateChange, callbackRegistrationId }
    rebuild t outcome.tree rest

def reconstructFromCanonical (t : Tree α) (entries : List (Range × α)) :
    Option (Outcome α Unit) := do
  if entries.any fun e => !e.1.isValid then
    return { tree := t
             result := .error (.invalidArgument "canonical entries contain an invalid range") }
  let rebuilt ← t.rebuild { canonicalComparator := t.canonicalComparator
                            priorityEvaluator := t.priorityEvaluator
                            suppressCallbacks := true } entries
  return { tree := { t with root := rebuilt.root, size := rebuilt.size
                            nextOrdinal := rebuilt.nextOrdinal }
           result := .ok () }

/-- The empty functions the source rejects cannot be passed here. -/
def registerStateCallback (t : Tree α) (accepts : α → Bool) (context : Nat)
    (callback : Nat → α → OverlayState → OverlayState → CallbackOutcome) : Outcome α Nat :=
  if t.nextCallbackRegistrationId = 2 ^ 64 - 1 then
    { tree := t, result := .error (.overflowError "state callback registration id exhausted") }
  else
    let id := t.nextCallbackRegistrationId
    { tree := { t with
        nextCallbackRegistrationId := id + 1
        callbackRegistrations := t.callbackRegistrations ++ [⟨id, accepts, context, callback⟩] }
      result := .ok id }

def unregisterStateCallback (t : Tree α) (registration : Nat) : Tree α :=
  if t.callbackRegistrations.any (·.id == registration) then
    { t with
      callbackRegistrations := t.callbackRegistrations.eraseP (·.id == registration)
      root := t.root.map (·.mapEntries fun e =>
        if e.callbackRegistrationId = registration then
          { e with onStateChange := none, callbackRegistrationId := 0 }
        else e) }
  else t

-- ---------------------------------------------------------------------------
-- Queries
-- ---------------------------------------------------------------------------

def hasOverlap (t : Tree α) (range : Range) : Bool :=
  range.isValid && match t.root with
    | some root => root.hasOverlapInSubtree range
    | none => false

/-- What a visitor that does not throw is handed. -/
def forEachOverlapping (t : Tree α) (range : Range) : Except Exn (List (Range × α)) :=
  if !range.isValid then .error (.invalidArgument "range is invalid")
  else match t.root with
    | some root => .ok ((root.visitOverlappingInOrder range).map fun e => (e.range, e.value))
    | none => .ok []

def findOverlapping (t : Tree α) (range : Range) : Except Exn (List (Range × α)) :=
  t.forEachOverlapping range

def queryTopology (t : Tree α) (range : Range) (value : α) : Except Exn (TopologyResult α) := do
  let overlappingEntries ← t.findOverlapping range
  return { overlappingEntries
           status := classifyTopology range (overlappingEntries.map Prod.fst)
           isTop := match t.priorityEvaluator with
             | some higher => !overlappingEntries.any fun e => higher e.2 value
             | none => true }

def addWithTopology (t : Tree α) (range : Range) (value : α)
    (onStateChange : Option (StateChangeCallback α)) :
    Option (Outcome α (Bool × TopologyResult α)) := do
  match t.queryTopology range value with
  | .error exn => return { tree := t, result := .error exn }
  | .ok topology =>
    let outcome ← t.insertEntry { range, value, ordinal := t.nextOrdinal, onStateChange }
    return { tree := outcome.tree, calls := outcome.calls
             result := outcome.result.map fun inserted =>
               if inserted then (true, topology) else (false, {}) }

-- ---------------------------------------------------------------------------
-- Histories
-- ---------------------------------------------------------------------------

def apply (t : Tree α) : Op α → Option (Outcome α (Reply α))
  | .add range value cb => (t.add range value cb).map (Outcome.reply · .flag)
  | .addWithTopology range value cb =>
    (t.addWithTopology range value cb).map (Outcome.reply · fun r => .topology r.1 r.2)
  | .removeByRange range matcher => (t.removeByRange range matcher).map (Outcome.reply · .flag)
  | .removeAllOverlapping range => (t.removeAllOverlapping range).map (Outcome.reply · .count)
  | .clear => some { tree := t.clear, result := .ok .done }
  | .enumerateCanonicalMove order =>
    some (Outcome.reply (t.enumerateCanonicalMove order) .entries)
  | .reconstructFromCanonical entries =>
    (t.reconstructFromCanonical entries).map (Outcome.reply · fun _ => .done)
  | .registerStateCallback accepts context callback =>
    some (Outcome.reply (t.registerStateCallback accepts context callback) .id)
  | .unregisterStateCallback registration =>
    some { tree := t.unregisterStateCallback registration, result := .ok .done }

/-- The tree after a sequence of mutations; one that throws is a step too. -/
def run : Tree α → List (Op α) → Option (Tree α)
  | t, [] => some t
  | t, op :: ops => do
    let outcome ← t.apply op
    run outcome.tree ops

end Tree
end Dmn.IntervalBTree
