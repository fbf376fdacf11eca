import Dmn.Ancs.Utf8

/-!
# Reassembly of an attribute response

`Dmn_AncsDataSourceReassembler`: one response arrives in fragments, each of
which is appended to the buffer and parsed as far as it goes. A cursor into the
buffer is modelled by the bytes from the cursor on.
-/

namespace Dmn.Ancs

def kDataSourceHeaderSize : Nat := 5

def kMaximumDataSourceResponseSize : Nat := 8192

def kRequestedAttributeIds : List UInt8 := [0, 1, 2, 3, 5]

def kMaximumAttributeSizes : List Nat := [255, 256, 256, 4096, 64]

inductive ErrorKind
  | authorization
  | backend
  | cleanup
  | invalidArgument
  | notReady
  | protocol
  | remote
  | resourceLimit
  | timeout
  | unsupported
  deriving DecidableEq, Repr

structure Error where
  kind : ErrorKind
  message : String
  fatal : Bool := true
  deriving DecidableEq, Repr

namespace Error

def terminal : Error :=
  ⟨.notReady, "ANCS Data Source response parser is already complete or failed", true⟩

def emptyFragment : Error := ⟨.protocol, "ANCS Data Source fragment is empty", true⟩

def responseSize : Error :=
  ⟨.resourceLimit, "ANCS Data Source response exceeds the 8192-byte limit", true⟩

def command : Error :=
  ⟨.protocol, "unexpected ANCS Data Source response command identifier", true⟩

def responseUid : Error :=
  ⟨.protocol, "ANCS Data Source response UID does not match the active request", true⟩

def order : Error :=
  ⟨.protocol, "ANCS Data Source attributes are not in requested order", true⟩

def attributeSize : Error :=
  ⟨.resourceLimit, "ANCS attribute value exceeds its configured byte limit", true⟩

def utf8 : Error := ⟨.protocol, "ANCS attribute is not valid UTF-8", false⟩

def trailing : Error :=
  ⟨.protocol, "ANCS Data Source response has trailing unrequested data", true⟩

end Error

structure AttributeSet where
  appIdentifier : Option (List UInt8) := none
  title : Option (List UInt8) := none
  subtitle : Option (List UInt8) := none
  message : Option (List UInt8) := none
  date : Option (List UInt8) := none
  deriving DecidableEq, Repr

def assignAttribute (attributes : AttributeSet) (index : Nat) (value : List UInt8) :
    AttributeSet :=
  match index with
  | 0 => { attributes with appIdentifier := some value }
  | 1 => { attributes with title := some value }
  | 2 => { attributes with subtitle := some value }
  | 3 => { attributes with message := some value }
  | 4 => { attributes with date := some value }
  | _ => attributes

def readUint16LittleEndian (b0 b1 : UInt8) : Nat := b0.toNat ||| b1.toNat <<< 8

def readUint32LittleEndian (b0 b1 b2 b3 : UInt8) : Nat :=
  b0.toNat ||| b1.toNat <<< 8 ||| b2.toNat <<< 16 ||| b3.toNat <<< 24

def isRequestedAttribute (attributeId : UInt8) : Bool := attributeId ∈ kRequestedAttributeIds

-- ---------------------------------------------------------------------------
-- The tuples
-- ---------------------------------------------------------------------------

/-- Where the loop over the tuples stops: the bytes from `consumed` on, the
members it has advanced, and the error it returns, if any. -/
structure Scan where
  rest : List UInt8
  index : Nat
  attributes : AttributeSet
  error : Option Error := none
  deriving DecidableEq

def parseTuples (rest : List UInt8) (index : Nat) (attributes : AttributeSet) : Scan :=
  if h : index < kRequestedAttributeIds.length then
    match rest with
    | attributeId :: low :: high :: value =>
      let attributeLength := readUint16LittleEndian low high
      if attributeId ≠ kRequestedAttributeIds[index] then
        if isRequestedAttribute attributeId then
          { rest, index, attributes, error := some .order }
        else if attributeLength > value.length then { rest, index, attributes }
        else parseTuples (value.drop attributeLength) index attributes
      else if attributeLength > kMaximumAttributeSizes[index] then
        { rest, index, attributes, error := some .attributeSize }
      else if attributeLength > value.length then { rest, index, attributes }
      else if ¬ isValidUtf8 (value.take attributeLength) then
        { rest, index, attributes, error := some .utf8 }
      else
        parseTuples (value.drop attributeLength) (index + 1)
          (assignAttribute attributes index (value.take attributeLength))
    -- Fewer bytes than a tuple header are left.
    | _ => { rest, index, attributes }
  else { rest, index, attributes }
termination_by rest.length

-- ---------------------------------------------------------------------------
-- The reassembler
-- ---------------------------------------------------------------------------

structure Reassembler where
  expectedUid : UInt32
  totalBytes : Nat := 0
  expectedAttributeIndex : Nat := 0
  headerSeen : Bool := false
  terminal : Bool := false
  buffer : List UInt8 := []
  attributes : AttributeSet := {}
  deriving DecidableEq

/-- `none` asks for more fragments. -/
abbrev Result := Except Error (Option AttributeSet)

namespace Reassembler

def fail (r : Reassembler) (error : Error) : Result × Reassembler :=
  (.error error, { r with terminal := true })

/-- From the loop over the tuples on: `rest` holds the buffer from `consumed` on. -/
def consumeTuples (r : Reassembler) (rest : List UInt8) : Result × Reassembler :=
  let scan := parseTuples rest r.expectedAttributeIndex r.attributes
  let r := { r with expectedAttributeIndex := scan.index, attributes := scan.attributes }
  match scan.error with
  | some error => r.fail error
  | none =>
    if scan.index = kRequestedAttributeIds.length then
      if scan.rest ≠ [] then r.fail .trailing
      else (.ok (some scan.attributes), { r with terminal := true })
    else (.ok none, { r with buffer := scan.rest })

def consume (r : Reassembler) (fragment : List UInt8) : Result × Reassembler :=
  if r.terminal then (.error .terminal, r)
  else if fragment = [] then (.error .emptyFragment, r)
  else if fragment.length > kMaximumDataSourceResponseSize - r.totalBytes then
    r.fail .responseSize
  else
    let r := { r with
      totalBytes := r.totalBytes + fragment.length, buffer := r.buffer ++ fragment }
    if r.headerSeen then r.consumeTuples r.buffer
    else
      match r.buffer with
      | command :: b0 :: b1 :: b2 :: b3 :: rest =>
        if command ≠ 0 then r.fail .command
        else if readUint32LittleEndian b0 b1 b2 b3 ≠ r.expectedUid.toNat then
          r.fail .responseUid
        else { r with headerSeen := true }.consumeTuples rest
      -- Fewer bytes than the header.
      | _ => (.ok none, r)

/-- `Dmn_AncsDataSourceReassembler(expectedUid)`. -/
def fresh (expectedUid : UInt32) : Reassembler := { expectedUid }

/-- The fragments in order, up to the first terminal result: the results and the
reassembler after each of them. -/
def feed (r : Reassembler) : List (List UInt8) → List (Result × Reassembler)
  | [] => []
  | fragment :: fragments =>
    match r.consume fragment with
    | (.ok none, r) => (.ok none, r) :: r.feed fragments
    | terminal => [terminal]

end Reassembler

end Dmn.Ancs
