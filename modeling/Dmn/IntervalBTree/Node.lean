import Dmn.Lib.Weave
import Dmn.IntervalBTree.Range

/-!
# Nodes of the interval B-tree

`Entry`, `Node` and the private node operations of `Dmn_IntervalBTree`, with
`s_minimumDegree = 2`: a node holds one to three entries, the root excepted.
An operation that would read past the end of a vector gives `none`, as does a
recursion that outlives its fuel; the height of the tree is always enough.

The source compares entries by address. Here an entry is recognised by its
ordinal, which no two entries of a tree share.
-/

namespace Dmn.IntervalBTree

open Lib (weave)

/-- A client callback cannot reach the tree (`ensureMutationAllowed` rejects
it): all that remains of one is whether it throws. -/
inductive CallbackOutcome where
  | returned
  | threw
  deriving DecidableEq, Repr

abbrev StateChangeCallback (α : Type) :=
  Range → α → OverlayState → OverlayState → CallbackOutcome

structure Entry (α : Type) where
  range : Range
  value : α
  ordinal : Nat
  onStateChange : Option (StateChangeCallback α) := none
  callbackRegistrationId : Nat := 0
  state : OverlayState := {}

inductive Node (α : Type) where
  | node (entries : List (Entry α)) (children : List (Node α)) (subtreeMaxEnd : Int64)
      (isLeaf : Bool)

variable {α : Type}

namespace Node

def entries : Node α → List (Entry α)
  | .node es _ _ _ => es

def children : Node α → List (Node α)
  | .node _ cs _ _ => cs

def subtreeMaxEnd : Node α → Int64
  | .node _ _ m _ => m

def isLeaf : Node α → Bool
  | .node _ _ _ leaf => leaf

@[simp] theorem entries_node : (node es cs m leaf : Node α).entries = es := rfl
@[simp] theorem children_node : (node es cs m leaf : Node α).children = cs := rfl
@[simp] theorem subtreeMaxEnd_node : (node es cs m leaf : Node α).subtreeMaxEnd = m := rfl
@[simp] theorem isLeaf_node : (node es cs m leaf : Node α).isLeaf = leaf := rfl

mutual
def collectEntriesInOrder : Node α → List (Entry α)
  | .node es cs _ leaf => if leaf then es else weave es (collectChildren cs)
def collectChildren : List (Node α) → List (List (Entry α))
  | [] => []
  | c :: cs => c.collectEntriesInOrder :: collectChildren cs
end

@[simp] theorem collectChildren_eq_map (cs : List (Node α)) :
    collectChildren cs = cs.map collectEntriesInOrder := by
  induction cs with
  | nil => rfl
  | cons c cs ih => simp [collectChildren, ih]

mutual

/-- The length of the longest path to a leaf: enough fuel for every descent. -/
def height : Node α → Nat
  | .node _ cs _ leaf => if leaf then 0 else heightOfChildren cs + 1
def heightOfChildren : List (Node α) → Nat
  | [] => 0
  | c :: cs => max c.height (heightOfChildren cs)
end

def refreshNodeMaxEnd : Node α → Node α
  | .node es cs _ leaf =>
    let maximumEnd := es.foldl (fun m e => max m e.range.end) Int64.minValue
    .node es cs (cs.foldl (fun m c => max m c.subtreeMaxEnd) maximumEnd) leaf

def minimumDegree : Nat := 2
def maxKeys : Nat := 2 * minimumDegree - 1

-- ---------------------------------------------------------------------------
-- Insertion
-- ---------------------------------------------------------------------------

/-- The upper half of a full child moves to a new sibling and its middle entry
to the parent. -/
def splitChild (parent : Node α) (childIndex : Nat) : Option (Node α) := do
  let child ← parent.children[childIndex]?
  let promoted ← child.entries[minimumDegree - 1]?
  let sibling : Node α := .node ((child.entries.take maxKeys).drop minimumDegree)
    (if child.isLeaf then [] else child.children.drop minimumDegree) Int64.minValue child.isLeaf
  let lower : Node α := .node (child.entries.take (minimumDegree - 1))
    (if child.isLeaf then child.children else child.children.take minimumDegree)
    child.subtreeMaxEnd child.isLeaf
  let children := (parent.children.set childIndex lower.refreshNodeMaxEnd).insertIdx
    (childIndex + 1) sibling.refreshNodeMaxEnd
  return (node (parent.entries.insertIdx childIndex promoted) children parent.subtreeMaxEnd
    false).refreshNodeMaxEnd

/-- The loop of `insertNonFull`: down from `k` while the entry is smaller. -/
def insertIndex (less : Entry α → Entry α → Bool) (entry : Entry α) (es : List (Entry α)) :
    Nat → Nat
  | 0 => 0
  | k + 1 =>
    match es[k]? with
    | some e => if less entry e then insertIndex less entry es k else k + 1
    | none => k + 1

def setChild (n : Node α) (childIndex : Nat) (child : Node α) : Node α :=
  .node n.entries (n.children.set childIndex child) n.subtreeMaxEnd n.isLeaf

def insertNonFull (less : Entry α → Entry α → Bool) (entry : Entry α) :
    Nat → Node α → Option (Node α)
  | 0, _ => none
  | fuel + 1, n => do
    let childIndex := insertIndex less entry n.entries n.entries.length
    if n.isLeaf then
      return (node (n.entries.insertIdx childIndex entry) n.children n.subtreeMaxEnd
        n.isLeaf).refreshNodeMaxEnd
    let child ← n.children[childIndex]?
    if child.entries.length = maxKeys then
      let n ← n.splitChild childIndex
      let promoted ← n.entries[childIndex]?
      let childIndex := if less promoted entry then childIndex + 1 else childIndex
      let child ← n.children[childIndex]?
      let child ← insertNonFull less entry fuel child
      return (n.setChild childIndex child).refreshNodeMaxEnd
    else
      let child ← insertNonFull less entry fuel child
      return (n.setChild childIndex child).refreshNodeMaxEnd

-- ---------------------------------------------------------------------------
-- Rebalancing
-- ---------------------------------------------------------------------------

def borrowFromPrevious (parent : Node α) (childIndex : Nat) : Option (Node α) := do
  if childIndex = 0 then failure
  let child ← parent.children[childIndex]?
  let sibling ← parent.children[childIndex - 1]?
  let separator ← parent.entries[childIndex - 1]?
  let last ← sibling.entries.getLast?
  let (moved, kept) ← if child.isLeaf then pure ([], sibling.children) else do
    let grandchild ← sibling.children.getLast?
    pure ([grandchild], sibling.children.dropLast)
  let child := (node (separator :: child.entries) (moved ++ child.children) child.subtreeMaxEnd
    child.isLeaf).refreshNodeMaxEnd
  let sibling := (node sibling.entries.dropLast kept sibling.subtreeMaxEnd
    sibling.isLeaf).refreshNodeMaxEnd
  return (node (parent.entries.set (childIndex - 1) last)
    ((parent.children.set childIndex child).set (childIndex - 1) sibling) parent.subtreeMaxEnd
    parent.isLeaf).refreshNodeMaxEnd

def borrowFromNext (parent : Node α) (childIndex : Nat) : Option (Node α) := do
  let child ← parent.children[childIndex]?
  let sibling ← parent.children[childIndex + 1]?
  let separator ← parent.entries[childIndex]?
  let first ← sibling.entries.head?
  let (moved, kept) ← if child.isLeaf then pure ([], sibling.children) else do
    let grandchild ← sibling.children.head?
    pure ([grandchild], sibling.children.tail)
  let child := (node (child.entries ++ [separator]) (child.children ++ moved) child.subtreeMaxEnd
    child.isLeaf).refreshNodeMaxEnd
  let sibling := (node sibling.entries.tail kept sibling.subtreeMaxEnd
    sibling.isLeaf).refreshNodeMaxEnd
  return (node (parent.entries.set childIndex first)
    ((parent.children.set childIndex child).set (childIndex + 1) sibling) parent.subtreeMaxEnd
    parent.isLeaf).refreshNodeMaxEnd

def mergeChildren (parent : Node α) (separatorIndex : Nat) : Option (Node α) := do
  let left ← parent.children[separatorIndex]?
  let right ← parent.children[separatorIndex + 1]?
  let separator ← parent.entries[separatorIndex]?
  let left := (node (left.entries ++ separator :: right.entries)
    (if left.isLeaf then left.children else left.children ++ right.children) left.subtreeMaxEnd
    left.isLeaf).refreshNodeMaxEnd
  return (node (parent.entries.eraseIdx separatorIndex)
    ((parent.children.set separatorIndex left).eraseIdx (separatorIndex + 1))
    parent.subtreeMaxEnd parent.isLeaf).refreshNodeMaxEnd

/-- The child at the index can give an entry away. -/
def canLend (n : Node α) (index : Nat) : Bool :=
  n.children[index]?.any fun c => c.entries.length ≥ minimumDegree

-- ---------------------------------------------------------------------------
-- Removal
-- ---------------------------------------------------------------------------

/-- Before descending from `removeMaximum`: the last child borrows from its left
sibling or is merged with it. -/
def refillLast (n : Node α) (childIndex : Nat) : Option (Node α × Nat) := do
  let child ← n.children[childIndex]?
  if child.entries.length = minimumDegree - 1 then
    if childIndex > 0 && n.canLend (childIndex - 1) then
      (·, childIndex) <$> n.borrowFromPrevious childIndex
    else if childIndex > 0 then (·, childIndex - 1) <$> n.mergeChildren (childIndex - 1)
    else some (n, childIndex)
  else some (n, childIndex)

def removeMaximum : Nat → Node α → Option (Entry α × Node α)
  | 0, _ => none
  | fuel + 1, n => do
    if n.isLeaf then
      let entry ← n.entries.getLast?
      return (entry, (node n.entries.dropLast n.children n.subtreeMaxEnd n.isLeaf).refreshNodeMaxEnd)
    let (n, childIndex) ← n.refillLast (n.children.length - 1)
    let child ← n.children[childIndex]?
    let (entry, child) ← removeMaximum fuel child
    return (entry, (n.setChild childIndex child).refreshNodeMaxEnd)

/-- Before descending from `removeMinimum`: the first child borrows from its
right sibling or is merged with it. -/
def refillFirst (n : Node α) : Option (Node α) := do
  let child ← n.children[0]?
  if child.entries.length = minimumDegree - 1 then
    if n.children.length > 1 && n.canLend 1 then n.borrowFromNext 0
    else if n.children.length > 1 then n.mergeChildren 0
    else some n
  else some n

def removeMinimum : Nat → Node α → Option (Entry α × Node α)
  | 0, _ => none
  | fuel + 1, n => do
    if n.isLeaf then
      let entry ← n.entries.head?
      return (entry, (node n.entries.tail n.children n.subtreeMaxEnd n.isLeaf).refreshNodeMaxEnd)
    let n ← n.refillFirst
    let child ← n.children[0]?
    let (entry, child) ← removeMinimum fuel child
    return (entry, (n.setChild 0 child).refreshNodeMaxEnd)

/-- The loop of `eraseEntry`: past the entries smaller than the target. -/
def eraseIndex (less : Entry α → Entry α → Bool) (target : Entry α) : List (Entry α) → Nat
  | [] => 0
  | e :: es => if less e target then eraseIndex less target es + 1 else 0

/-- Before descending from `eraseEntry`: a child with a single entry borrows
one from a sibling, or is merged with one. -/
def refillChild (n : Node α) (index : Nat) : Option (Node α × Nat) := do
  let child ← n.children[index]?
  if child.entries.length = minimumDegree - 1 then
    if index > 0 && n.canLend (index - 1) then (·, index) <$> n.borrowFromPrevious index
    else if index < n.entries.length && n.canLend (index + 1) then
      (·, index) <$> n.borrowFromNext index
    else if index < n.entries.length then (·, index) <$> n.mergeChildren index
    else if index = 0 then none
    else (·, index - 1) <$> n.mergeChildren (index - 1)
  else some (n, index)

def setEntry (n : Node α) (index : Nat) (entry : Entry α) : Node α :=
  .node (n.entries.set index entry) n.children n.subtreeMaxEnd n.isLeaf

def eraseEntry (less : Entry α → Entry α → Bool) (target : Entry α) :
    Nat → Node α → Option (Node α)
  | 0, _ => none
  | fuel + 1, n => do
    let index := eraseIndex less target n.entries
    if (n.entries[index]?.map Entry.ordinal) = some target.ordinal then
      if n.isLeaf then
        return (node (n.entries.eraseIdx index) n.children n.subtreeMaxEnd
          n.isLeaf).refreshNodeMaxEnd
      let left ← n.children[index]?
      if left.entries.length ≥ minimumDegree then
        let (entry, left) ← left.removeMaximum fuel
        return ((n.setChild index left).setEntry index entry).refreshNodeMaxEnd
      let right ← n.children[index + 1]?
      if right.entries.length ≥ minimumDegree then
        let (entry, right) ← right.removeMinimum fuel
        return ((n.setChild (index + 1) right).setEntry index entry).refreshNodeMaxEnd
      let n ← n.mergeChildren index
      let child ← n.children[index]?
      let child ← eraseEntry less target fuel child
      return (n.setChild index child).refreshNodeMaxEnd
    if n.isLeaf then return n
    let (n, index) ← n.refillChild index
    let child ← n.children[index]?
    let child ← eraseEntry less target fuel child
    return (n.setChild index child).refreshNodeMaxEnd

end Node
end Dmn.IntervalBTree
