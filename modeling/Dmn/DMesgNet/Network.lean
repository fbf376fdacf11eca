import Dmn.DMesgNet.Node

/-!
# Nodes and their system messages

Any number of nodes. A system message written by a node is on its way to every
node until it is delivered there or lost; it may be delivered late, out of order
and more than once. The local path of a message from the sys handler to the
output is part of its delay.
-/

namespace Dmn.DMesgNet

open Dmn.DMesg Dmn.Lib

/-- A serialized system message. -/
structure Frame where
  sourceWriteHandlerIdentifier : String
  sys : DMesgSysPb
  deriving DecidableEq

structure Network (ι : Type*) where
  node : ι → Node
  alive : ι → Bool := fun _ => true
  -- The constructor has written its system message.
  announced : ι → Bool := fun _ => false
  flight : ι → List Frame := fun _ => []
  -- The nodes stopped by an assertion.
  aborted : ι → Bool := fun _ => false

inductive Event (ι : Type*)
  | announce (i : ι)
  | task (i : ι) (t : Node.Task)
  | deliver (i : ι) (index : Nat) (now : Timestamp) (order : List String)
      (fails : Option Nat := none)
  | duplicate (i : ι) (index : Nat)
  | lose (i : ι) (index : Nat)
  | destroy (i : ι) (now : Timestamp)

namespace Network

variable {ι : Type*}

def frame (n : Node) (sys : DMesgSysPb) : Frame := ⟨n.name, sys⟩

/-- Nodes with the names and times of their construction. -/
def start (name : ι → String) (time : ι → Timestamp) : Network ι where
  node i := .new (name i) (time i)

variable [DecidableEq ι]

def send (s : Network ι) (frames : List Frame) : Network ι :=
  { s with flight := fun k => s.flight k ++ frames }

/-- A task of node `i` and what it writes. -/
def finish (s : Network ι) (i : ι) : Outcome → Network ι
  | none => { s with aborted := Function.update s.aborted i true }
  | some (n, written) =>
    { s with node := Function.update s.node i n }.send (written.sent.map (frame n))

def up (s : Network ι) (i : ι) : Bool := s.alive i && !s.aborted i

/-- The input loop: a frame of this node itself is skipped. -/
def receive (s : Network ι) (i : ι) (f : Frame) (now : Timestamp) (order : List String)
    (fails : Option Nat) : Option (Network ι) :=
  if ¬ s.up i ∨ f.sourceWriteHandlerIdentifier = (s.node i).name then some s
  else if order.Perm (s.node i).out.pendingTopics then
    some (s.finish i ((s.node i).reconciliateDMesgPbSys f.sys.self now order fails))
  else none

def step (s : Network ι) : Event ι → Option (Network ι)
  | .announce i =>
    if s.up i ∧ (s.node i).sysHandler ∧ ¬ s.announced i then
      some ({ s with announced := Function.update s.announced i true }.send
        [frame (s.node i) (s.node i).sys])
    else none
  | .task i t =>
    match t with
    -- What reaches the reconciliation comes over the network.
    | .reconciliate .. => none
    | t => if s.up i ∧ t.enabled (s.node i) then some (s.finish i ((s.node i).run t)) else none
  | .deliver i index now order fails =>
    match (s.flight i)[index]? with
    | none => none
    | some f =>
      { s with flight := Function.update s.flight i ((s.flight i).eraseIdx index) }.receive i f
        now order fails
  | .duplicate i index =>
    match (s.flight i)[index]? with
    | none => none
    | some f => some { s with flight := Function.update s.flight i (s.flight i ++ [f]) }
  | .lose i index =>
    if index < (s.flight i).length then
      some { s with flight := Function.update s.flight i ((s.flight i).eraseIdx index) }
    else none
  | .destroy i now =>
    if s.alive i then
      let n := s.node i
      let n := n.setSelf { n.sys.self with
        state := .destroyed, masterIdentifier := "", updatedTimestamp := now }
      some ({ s with
        node := Function.update s.node i n, alive := Function.update s.alive i false }.send
          [frame n n.sys])
    else none

end Network
end Dmn.DMesgNet
