import Mathlib.Data.String.Basic

/-!
# Messages

`DMesgPb` with the fields that a publisher, a handler or a bridge reads. The
body is copied and never looked at; running counters are 64-bit and taken not
to wrap.
-/

namespace Dmn.DMesg

inductive DMesgTypePb
  | invalid
  | sys
  | message
  deriving DecidableEq, Repr

structure DMesgPb where
  topic : String
  runningCounter : Nat := 0
  sourceIdentifier : String := ""
  sourceWriteHandlerIdentifier : String := ""
  type : DMesgTypePb := .message
  playback : Bool := false
  conflict : Bool := false
  force : Bool := false
  body : String := ""
  deriving DecidableEq, Repr

/-- Everything but a system message. -/
def DMesgPb.ordinary (m : DMesgPb) : Bool := m.type ≠ .sys

end Dmn.DMesg
