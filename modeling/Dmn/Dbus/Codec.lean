import Dmn.Lib.Halting
import Mathlib.Data.List.TakeWhile

/-!
# The codec of D-Bus values

`encodeArguments` and `decodeArguments`, over messages as trees: what is opened, appended and
closed is what is recursed into and read, and nothing runs out of memory while it is written.
-/

namespace Dmn.Dbus.Codec

open Dmn.Lib

-- ---------------------------------------------------------------------------
-- Values
-- ---------------------------------------------------------------------------

/-- A `std::string`, by its bytes. -/
abbrev Text := List Char

/-- A value that is no container. -/
inductive Basic
  | boolean (value : Bool)
  | int16 (value : Int16)
  | uint16 (value : UInt16)
  | int32 (value : Int32)
  | uint32 (value : UInt32)
  | int64 (value : Int64)
  | uint64 (value : UInt64)
  -- By its bits.
  | double (bits : UInt64)
  | byte (value : UInt8)
  | string (value : Text)
  | objectPath (value : Text)
  | signatureValue (value : Text)

/-- `Dmn_DbusValue`, whose pointers its constructors have set -/
inductive Value
  -- `std::monostate`
  | empty
  | basic (data : Basic)
  | byteArray (bytes : List UInt8)
  | array (elementSignature : Text) (values : List Value)
  | dictionary (keySignature valueSignature : Text) (entries : List (Value × Value))
  | struct (fields : List Value)
  | variant (value : Value)

def Basic.code : Basic → Char
  | .boolean _ => 'b'
  | .int16 _ => 'n'
  | .uint16 _ => 'q'
  | .int32 _ => 'i'
  | .uint32 _ => 'u'
  | .int64 _ => 'x'
  | .uint64 _ => 't'
  | .double _ => 'd'
  | .byte _ => 'y'
  | .string _ => 's'
  | .objectPath _ => 'o'
  | .signatureValue _ => 'g'

mutual

def Value.signature : Value → Text
  | .empty => []
  | .basic data => [data.code]
  | .byteArray _ => ['a', 'y']
  | .array elementSignature _ => 'a' :: elementSignature
  | .dictionary keySignature valueSignature _ => 'a' :: '{' :: (keySignature ++ valueSignature ++ ['}'])
  | .struct fields => '(' :: (signatures fields ++ [')'])
  | .variant _ => ['v']

def signatures : List Value → Text
  | [] => []
  | field :: fields => field.signature ++ signatures fields

end

-- ---------------------------------------------------------------------------
-- Messages
-- ---------------------------------------------------------------------------

/-- What a message iterator is at. -/
inductive Wire
  | basic (data : Basic)
  -- With the signature that it was opened with.
  | array (contained : Text) (items : List Wire)
  | dictEntry (items : List Wire)
  | struct (items : List Wire)
  | variant (contained : Text) (items : List Wire)

/-- What libdbus checks and measures. -/
structure Libdbus where
  signatureValidateSingle : Text → Bool
  signatureValidate : Text → Bool
  validateUtf8 : Text → Bool
  validatePath : Text → Bool
  -- A container with this signature can be opened.
  opens : Text → Bool
  -- `dbus_message_marshal`, `none` without memory
  marshal : List Wire → Option Nat

structure Limits where
  maxBytes : Nat
  maxDepth : Nat
  maxValues : Nat

/-- The exceptions. -/
inductive Failure
  | lengthError
  | invalidArgument
  | runtimeError
  | badVariantAccess
  deriving DecidableEq

/-- `Dmn_DbusErrorKind`, as far as the codec is concerned -/
inductive ErrorKind
  | resourceLimit
  | codec
  deriving DecidableEq

-- ---------------------------------------------------------------------------
-- Signatures
-- ---------------------------------------------------------------------------

mutual

def signatureTypeLength (signature : Text) : Nat :=
  match signature with
  | [] => 0
  | 'a' :: rest => 1 + signatureTypeLength rest
  | '(' :: rest => containedLength ')' rest 1
  | '{' :: rest => containedLength '}' rest 1
  | _ :: _ => 1
termination_by (signature.length, 0)

/-- The loop up to `close`, from `index` on. -/
def containedLength (close : Char) (rest : Text) (index : Nat) : Nat :=
  match rest with
  | [] => 0
  | c :: more =>
    if c = close then index + 1
    else
      match signatureTypeLength (c :: more) with
      | 0 => 0
      | length + 1 => containedLength close (more.drop length) (index + (length + 1))
termination_by (rest.length, 1)

end

variable (lib : Libdbus) (limits : Limits)

def validSignature (signature : Text) : Bool :=
  !signature.isEmpty && signature.length ≤ 255 && !signature.contains '\x00' &&
    lib.signatureValidateSingle signature

def validText (text : Text) : Bool := !text.contains '\x00' && lib.validateUtf8 text

def validObjectPath (path : Text) : Bool := !path.contains '\x00' && lib.validatePath path

def validSignatureValue (signature : Text) : Bool := !signature.contains '\x00' &&
    lib.signatureValidate signature

/-- What is read at `c_str()`. -/
def cString (text : Text) : Text := text.takeWhile (· ≠ '\x00')

-- ---------------------------------------------------------------------------
-- Encoding
-- ---------------------------------------------------------------------------

/-- The limits that both directions begin with. -/
def enter (depth count : Nat) : Except Failure Nat :=
  if limits.maxDepth < depth then .error .lengthError
  else if limits.maxValues < count + 1 then .error .lengthError
  else .ok (count + 1)

def appendBasic : Basic → Except Failure Basic
  | .string text => if validText lib text then .ok (.string (cString text)) else .error .invalidArgument
  | .objectPath path =>
    if validObjectPath lib path then .ok (.objectPath (cString path)) else .error .invalidArgument
  | .signatureValue signature =>
    if validSignatureValue lib signature then .ok (.signatureValue (cString signature)) else .error
      .invalidArgument
  | data => .ok data

def openContainer (contained : Text) : Except Failure Unit :=
  if lib.opens contained then .ok () else .error .runtimeError

def require (condition : Bool) (failure : Failure) : Except Failure Unit :=
  if condition then .ok () else .error failure

def keyCodes : List Char := ['y', 'b', 'n', 'q', 'i', 'u', 'x', 't', 'd', 's', 'o', 'g']

/-- The signature is one that `encodeValue` takes for that of a byte array or a dictionary. -/
def misleading (elementSignature : Text) : Bool :=
  elementSignature = ['y'] || (2 ≤ elementSignature.length && elementSignature.head? = some '{')

mutual

def encodeValue : Value → Nat → Nat → Except Failure (Wire × Nat)
  | .empty, depth, count => do
    let _ ← enter limits depth count
    .error .invalidArgument
  | .basic data, depth, count => do
    let count ← enter limits depth count
    let data ← appendBasic lib data
    return (.basic data, count)
  | .byteArray bytes, depth, count => do
    let count ← enter limits depth count
    require (bytes.length ≤ limits.maxBytes && bytes.length ≤ 2147483647) .lengthError
    openContainer lib ['y']
    return (.array ['y'] (bytes.map fun byte => .basic (.byte byte)), count)
  | .array elementSignature values, depth, count => do
    let count ← enter limits depth count
    require (!misleading elementSignature) .badVariantAccess
    require (validSignature lib elementSignature) .invalidArgument
    require (values.all (·.signature = elementSignature)) .invalidArgument
    openContainer lib elementSignature
    let (items, count) ← encodeAll values (depth + 1) count
    return (.array elementSignature items, count)
  | .dictionary keySignature valueSignature entries, depth, count => do
    let count ← enter limits depth count
    require (validSignature lib keySignature && validSignature lib valueSignature && keySignature.length = 1 &&
      keySignature.all (keyCodes.contains ·)) .invalidArgument
    openContainer lib ('{' :: (keySignature ++ valueSignature ++ ['}']))
    let (items, count) ← encodeEntries keySignature valueSignature entries (depth + 1) count
    return (.array ('{' :: (keySignature ++ valueSignature ++ ['}'])) items, count)
  | .struct fields, depth, count => do
    let count ← enter limits depth count
    let (items, count) ← encodeAll fields (depth + 1) count
    -- A struct without fields cannot be closed.
    require (!items.isEmpty) .runtimeError
    return (.struct items, count)
  | .variant inner, depth, count => do
    let count ← enter limits depth count
    require (validSignature lib inner.signature) .invalidArgument
    openContainer lib inner.signature
    let (item, count) ← encodeValue inner (depth + 1) count
    return (.variant inner.signature [item], count)

def encodeAll : List Value → Nat → Nat → Except Failure (List Wire × Nat)
  | [], _, count => return ([], count)
  | value :: values, depth, count => do
    let (item, count) ← encodeValue value depth count
    let (items, count) ← encodeAll values depth count
    return (item :: items, count)

def encodeEntries (keySignature valueSignature : Text) :
    List (Value × Value) → Nat → Nat → Except Failure (List Wire × Nat)
  | [], _, count => return ([], count)
  | (key, value) :: entries, depth, count => do
    require (key.signature = keySignature && value.signature = valueSignature) .invalidArgument
    let (keyItem, count) ← encodeValue key depth count
    let (valueItem, count) ← encodeValue value depth count
    let (items, count) ← encodeEntries keySignature valueSignature entries depth count
    return (.dictEntry [keyItem, valueItem] :: items, count)

end

-- ---------------------------------------------------------------------------
-- Decoding
-- ---------------------------------------------------------------------------

/-- `dbus_message_iter_get_fixed_array` -/
def fixedArray (items : List Wire) : List UInt8 :=
  items.filterMap fun
    | .basic (.byte byte) => some byte
    | _ => none

mutual

def decodeValue : Wire → Nat → Nat → Except Failure (Value × Nat)
  | .basic data, depth, count => do
    let count ← enter limits depth count
    return (.basic data, count)
  | .array contained items, depth, count => do
    let count ← enter limits depth count
    if contained = ['y'] then return (.byteArray (fixedArray items), count)
    else if 2 ≤ contained.length ∧ contained.head? = some '{' ∧ contained.getLast? = some '}' then
      let inner := (contained.drop 1).dropLast
      let keyLength := signatureTypeLength inner
      require (keyLength ≠ 0 && keyLength < inner.length) .runtimeError
      let (entries, count) ← decodeEntries items (depth + 1) count
      return (.dictionary (inner.take keyLength) (inner.drop keyLength) entries, count)
    else
      let (values, count) ← decodeAll items (depth + 1) count
      return (.array contained values, count)
  | .struct items, depth, count => do
    let count ← enter limits depth count
    let (fields, count) ← decodeAll items (depth + 1) count
    return (.struct fields, count)
  | .variant _ [], depth, count => do
    let _ ← enter limits depth count
    .error .runtimeError
  | .variant _ (item :: _), depth, count => do
    let count ← enter limits depth count
    let (inner, count) ← decodeValue item (depth + 1) count
    return (.variant inner, count)
  -- Not a type of its own.
  | .dictEntry _, depth, count => do
    let _ ← enter limits depth count
    .error .runtimeError

def decodeAll : List Wire → Nat → Nat → Except Failure (List Value × Nat)
  | [], _, count => return ([], count)
  | item :: items, depth, count => do
    let (value, count) ← decodeValue item depth count
    let (values, count) ← decodeAll items depth count
    return (value :: values, count)

def decodeEntries : List Wire → Nat → Nat → Except Failure (List (Value × Value) × Nat)
  | [], _, count => return ([], count)
  | .dictEntry (keyItem :: valueItem :: _) :: items, depth, count => do
    let (key, count) ← decodeValue keyItem depth count
    let (value, count) ← decodeValue valueItem depth count
    let (entries, count) ← decodeEntries items depth count
    return ((key, value) :: entries, count)
  | .dictEntry [keyItem] :: _, depth, count => do
    let _ ← decodeValue keyItem depth count
    .error .runtimeError
  | _ :: _, _, _ => .error .runtimeError

end

-- ---------------------------------------------------------------------------
-- Arguments
-- ---------------------------------------------------------------------------

def messageSize (message : List Wire) : Except Failure Nat :=
  match lib.marshal message with
  | none => .error .runtimeError
  | some size => .ok size

/-- The loop of `encodeArguments`. A `lengthError` is caught. -/
def encodeFrom : List Wire → List Value → Nat → Except Failure (Option (List Wire))
  | message, [], _ => do
    let size ← messageSize lib message
    return if size ≤ limits.maxBytes then some message else none
  | message, value :: values, count =>
    match encodeValue lib limits value 0 count with
    | .error .lengthError => .ok none
    | .error failure => .error failure
    | .ok (item, count) => do
      let size ← messageSize lib (message ++ [item])
      if limits.maxBytes < size then return none else encodeFrom (message ++ [item]) values count

/-- The message, unless it is refused. -/
def encodeArguments (arguments : List Value) : Except Failure (Option (List Wire)) :=
  encodeFrom lib limits [] arguments 0

def decodeArguments (message : List Wire) : Except Failure (Except ErrorKind (List Value)) := do
  let size ← messageSize lib message
  if limits.maxBytes < size then return .error .resourceLimit
  else
    match decodeAll limits message 0 0 with
    | .ok (values, _) => return .ok values
    | .error .lengthError => return .error .resourceLimit
    | .error _ => return .error .codec

-- ---------------------------------------------------------------------------
-- Depth and number of values
-- ---------------------------------------------------------------------------

mutual

/-- How deep the values in it are. -/
def Value.height : Value → Nat
  | .empty | .basic _ | .byteArray _ => 0
  | .array _ values | .struct values => heights values
  | .dictionary _ _ entries => entryHeights entries
  | .variant inner => inner.height + 1

def heights : List Value → Nat
  | [] => 0
  | value :: values => max (value.height + 1) (heights values)

def entryHeights : List (Value × Value) → Nat
  | [] => 0
  | (key, value) :: entries => max (key.height + 1) (max (value.height + 1) (entryHeights entries))

end

mutual

/-- How many values it is made of. -/
def Value.count : Value → Nat
  | .empty | .basic _ | .byteArray _ => 1
  | .array _ values | .struct values => counts values + 1
  | .dictionary _ _ entries => entryCounts entries + 1
  | .variant inner => inner.count + 1

def counts : List Value → Nat
  | [] => 0
  | value :: values => value.count + counts values

def entryCounts : List (Value × Value) → Nat
  | [] => 0
  | (key, value) :: entries => key.count + (value.count + entryCounts entries)

end

/-- The arguments are within the limits for depth and number of values. -/
structure Limits.Admits (limits : Limits) (arguments : List Value) : Prop where
  depth : ∀ value ∈ arguments, value.height ≤ limits.maxDepth
  values : counts arguments ≤ limits.maxValues

mutual

/-- `dbus_message_iter_get_signature` -/
def Wire.signature : Wire → Text
  | .basic data => [data.code]
  | .array contained _ => 'a' :: contained
  | .dictEntry items => '{' :: (itemSignatures items ++ ['}'])
  | .struct items => '(' :: (itemSignatures items ++ [')'])
  | .variant _ _ => ['v']

def itemSignatures : List Wire → Text
  | [] => []
  | item :: items => item.signature ++ itemSignatures items

end

-- ---------------------------------------------------------------------------
-- Budgets
-- ---------------------------------------------------------------------------

variable {lib : Libdbus} {limits : Limits} {α β : Type} {a : α} {b : β}
  {height height' size size' depth count : Nat}

/-- The result of something so high and of so many values. -/
def budget (limits : Limits) (height size : Nat) (a : α) (depth count : Nat) : Except Failure (α × Nat) :=
  if depth + height ≤ limits.maxDepth ∧ count + size ≤ limits.maxValues then .ok (a, count + size)
  else .error .lengthError

theorem budget_pure (hdepth : depth ≤ limits.maxDepth) (hcount : count ≤ limits.maxValues) :
    (.ok (a, count) : Except Failure (α × Nat)) = budget limits 0 0 a depth count := by
  rw [budget, if_pos ⟨hdepth, hcount⟩]
  rfl

theorem budget_succ :
    budget limits height size a (depth + 1) count = budget limits (height + 1) size a depth count := by
  simp only [budget, Nat.add_assoc, Nat.add_comm 1]

theorem budget_bind {f : α × Nat → Except Failure (β × Nat)}
    (next : depth + height ≤ limits.maxDepth → count + size ≤ limits.maxValues →
      f (a, count + size) = budget limits height' size' b depth (count + size)) :
    (budget limits height size a depth count >>= f) =
      budget limits (max height height') (size + size') b depth count := by
  by_cases fits : depth + height ≤ limits.maxDepth ∧ count + size ≤ limits.maxValues
  · rw [budget, if_pos fits]
    refine (next fits.1 fits.2).trans ?_
    simp only [budget, Nat.add_assoc]
    exact if_congr (by omega) rfl rfl
  · have exceeds : ¬(depth + max height height' ≤ limits.maxDepth ∧ count + (size + size') ≤
      limits.maxValues) := by
      omega
    rw [budget, if_neg fits, budget, if_neg exceeds]
    rfl

theorem budget_map {f : α × Nat → Except Failure (β × Nat)} (h : ∀ count, f (a, count) = .ok (b, count)) :
    (budget limits height size a depth count >>= f) = budget limits height size b depth count := by
  unfold budget
  split
  · exact h _
  · rfl

theorem enter_bind {f : Nat → Except Failure (α × Nat)}
    (next : depth ≤ limits.maxDepth → count + 1 ≤ limits.maxValues →
      f (count + 1) = budget limits height size a depth (count + 1)) :
    (enter limits depth count >>= f) = budget limits height (size + 1) a depth count := by
  by_cases fits : depth ≤ limits.maxDepth ∧ count + 1 ≤ limits.maxValues
  · have entered : enter limits depth count = .ok (count + 1) := by
      rw [enter, if_neg (Nat.not_lt.mpr fits.1), if_neg (Nat.not_lt.mpr fits.2)]
    rw [entered]
    refine (next fits.1 fits.2).trans ?_
    simp only [budget, Nat.add_assoc, Nat.add_comm 1]
  · have refused : enter limits depth count = .error .lengthError := by
      unfold enter
      split
      · rfl
      · rw [if_pos (by omega)]
    have exceeds : ¬(depth + height ≤ limits.maxDepth ∧ count + (size + 1) ≤ limits.maxValues) := by omega
    rw [refused, budget, if_neg exceeds]
    rfl

-- ---------------------------------------------------------------------------
-- What is encoded
-- ---------------------------------------------------------------------------

section
variable (lib : Libdbus) (maxBytes : Nat)

mutual

/-- The value is on the wire, which has let it pass. -/
inductive Wired : Value → Wire → Prop
  | basic {data : Basic} (appended : appendBasic lib data = .ok data) : Wired (.basic data) (.basic data)
  | byteArray {bytes : List UInt8} (small : bytes.length ≤ maxBytes ∧ bytes.length ≤ 2147483647)
      (opened : openContainer lib ['y'] = .ok ()) :
      Wired (.byteArray bytes) (.array ['y'] (bytes.map fun byte => .basic (.byte byte)))
  | array {elementSignature : Text} {values : List Value} {items : List Wire}
      (plain : misleading elementSignature = false)
      (valid : validSignature lib elementSignature = true)
      (elements : values.all (·.signature = elementSignature) = true)
      (opened : openContainer lib elementSignature = .ok ()) (h : WiredAll values items) :
      Wired (.array elementSignature values) (.array elementSignature items)
  | dictionary {key : Char} {valueSignature : Text} {entries : List (Value × Value)} {items : List Wire}
      (basic : key ∈ keyCodes) (valid : (validSignature lib [key] && validSignature lib valueSignature) = true)
      (opened : openContainer lib ('{' :: ([key] ++ valueSignature ++ ['}'])) = .ok ())
      (h : WiredEntries [key] valueSignature entries items) :
      Wired (.dictionary [key] valueSignature entries) (.array ('{' :: ([key] ++ valueSignature ++ ['}']))
        items)
  | struct {fields : List Value} {items : List Wire} (filled : (!items.isEmpty) = true)
      (h : WiredAll fields items) :
      Wired (.struct fields) (.struct items)
  | variant {inner : Value} {item : Wire} (valid : validSignature lib inner.signature = true)
      (opened : openContainer lib inner.signature = .ok ()) (h : Wired inner item) :
      Wired (.variant inner) (.variant inner.signature [item])

inductive WiredAll : List Value → List Wire → Prop
  | nil : WiredAll [] []
  | cons {value : Value} {item : Wire} {values : List Value} {items : List Wire} (h : Wired value item)
      (more : WiredAll values items) : WiredAll (value :: values) (item :: items)

inductive WiredEntries : Text → Text → List (Value × Value) → List Wire → Prop
  | nil {keySignature valueSignature : Text} : WiredEntries keySignature valueSignature [] []
  | cons {key value : Value} {keyItem valueItem : Wire} {entries : List (Value × Value)} {items : List Wire}
      (hkey : Wired key keyItem) (hvalue : Wired value valueItem)
      (more : WiredEntries key.signature value.signature entries items) :
      WiredEntries key.signature value.signature ((key, value) :: entries) (.dictEntry [keyItem,
        valueItem] :: items)

end
end

variable {maxBytes : Nat}

theorem signatureTypeLength_key {key : Char} (h : key ∈ keyCodes) (rest : Text) :
    signatureTypeLength (key :: rest) = 1 := by
  have plain : key ≠ 'a' ∧ key ≠ '(' ∧ key ≠ '{' := by
    constructor
    · rintro rfl
      exact absurd h (by decide)
    · constructor <;> (rintro rfl; exact absurd h (by decide))
  obtain ⟨ha, hstruct, hentry⟩ := plain
  rw [signatureTypeLength]
  · exact ha
  · exact hstruct
  · exact hentry

theorem fixedArray_bytes (bytes : List UInt8) : fixedArray (bytes.map fun byte => .basic (.byte byte)) =
    bytes := by
  induction bytes with
  | nil => rfl
  | cons byte bytes ih => exact congrArg (byte :: ·) ih

theorem require_true {failure : Failure} {condition : Bool} (h : condition = true) :
    require condition failure = .ok () := by
  rw [require, h]
  rfl

/-- The signature of a dictionary, as `decodeValue` takes it apart. -/
theorem dictionary_signature (key : Char) (valueSignature : Text) :
    let contained := '{' :: ([key] ++ valueSignature ++ ['}'])
    contained ≠ ['y'] ∧ (2 ≤ contained.length ∧ contained.head? = some '{' ∧ contained.getLast? = some '}') ∧
      (contained.drop 1).dropLast = key :: valueSignature := by
  refine ⟨nofun, ⟨?_, rfl, ?_⟩, ?_⟩
  · simp
  · simp [List.getLast?_cons]
  · show ((key :: valueSignature) ++ ['}']).dropLast = key :: valueSignature
    exact List.dropLast_concat

theorem length_pos_of_valid {signature : Text} (h : validSignature lib signature = true) :
    0 < signature.length := by
  refine List.length_pos_iff.mpr fun none => ?_
  subst none
  cases h

theorem misleading_eq_false {elementSignature : Text} (h : misleading elementSignature = false) :
    elementSignature ≠ ['y'] ∧ ¬(2 ≤ elementSignature.length ∧ elementSignature.head? = some '{' ∧
      elementSignature.getLast? = some '}') := by
  simp only [misleading, Bool.or_eq_false_iff, decide_eq_false_iff_not, Bool.and_eq_false_imp,
    decide_eq_true_eq] at h
  exact ⟨h.1, fun dictionary => h.2 dictionary.1 dictionary.2.1⟩

mutual

/-- What is on the wire is read back, as far as the limits admit it. -/
theorem Wired.decodeValue {value : Value} {item : Wire} (h : Wired lib maxBytes value item) (limits : Limits)
    (depth count : Nat) :
    decodeValue limits item depth count = budget limits value.height value.count value depth count :=
  match h with
  | .basic _ => by
    rw [Codec.decodeValue]
    exact enter_bind budget_pure
  | .byteArray _ _ => by
    rw [Codec.decodeValue]
    refine enter_bind fun hdepth hcount => ?_
    rw [if_pos rfl, fixedArray_bytes]
    exact budget_pure hdepth hcount
  | .array plain _ _ _ h => by
    obtain ⟨bytes, dictionary⟩ := misleading_eq_false plain
    rw [Codec.decodeValue]
    refine enter_bind fun hdepth hcount => ?_
    rw [if_neg bytes, if_neg dictionary, h.decodeAll limits depth _ hdepth hcount]
    exact budget_map fun _ => rfl
  | .dictionary basic valid _ h => by
    have complete := length_pos_of_valid (Bool.and_eq_true_iff.mp valid).2
    rw [Codec.decodeValue]
    refine enter_bind fun hdepth hcount => ?_
    obtain ⟨other, bounds, inner⟩ := dictionary_signature _ _
    rw [if_neg other, if_pos bounds]
    dsimp only
    rw [inner, signatureTypeLength_key basic]
    rw [require_true (by simpa using complete)]
    show (decodeEntries limits _ (depth + 1) (count + 1) >>= _) = _
    rw [h.decodeEntries limits depth _ hdepth hcount]
    exact budget_map fun _ => rfl
  | .struct _ h => by
    rw [Codec.decodeValue]
    refine enter_bind fun hdepth hcount => ?_
    rw [h.decodeAll limits depth _ hdepth hcount]
    exact budget_map fun _ => rfl
  | .variant _ _ h => by
    rw [Codec.decodeValue]
    refine enter_bind fun hdepth hcount => ?_
    rw [h.decodeValue limits (depth + 1), budget_succ]
    exact budget_map fun _ => rfl

theorem WiredAll.decodeAll {values : List Value} {items : List Wire} (h : WiredAll lib maxBytes values items)
    (limits : Limits) (depth count : Nat) (hdepth : depth ≤ limits.maxDepth)
    (hcount : count ≤ limits.maxValues) :
    decodeAll limits items (depth + 1) count = budget limits (heights values) (counts values) values
      depth count :=
  match h with
  | .nil => budget_pure hdepth hcount
  | .cons h more => by
    rw [Codec.decodeAll, h.decodeValue limits (depth + 1), budget_succ]
    refine budget_bind fun _ hcount => ?_
    dsimp only
    rw [more.decodeAll limits depth _ hdepth hcount]
    exact budget_map fun _ => rfl

theorem WiredEntries.decodeEntries {keySignature valueSignature : Text} {entries : List (Value × Value)}
    {items : List Wire} (h : WiredEntries lib maxBytes keySignature valueSignature entries items)
    (limits : Limits) (depth count : Nat)
    (hdepth : depth ≤ limits.maxDepth) (hcount : count ≤ limits.maxValues) :
    decodeEntries limits items (depth + 1) count =
      budget limits (entryHeights entries) (entryCounts entries) entries depth count :=
  match h with
  | .nil => budget_pure hdepth hcount
  | .cons hkey hvalue more => by
    rw [Codec.decodeEntries, hkey.decodeValue limits (depth + 1), budget_succ]
    refine budget_bind fun _ hcount => ?_
    dsimp only
    rw [hvalue.decodeValue limits (depth + 1), budget_succ]
    refine budget_bind fun _ hcount => ?_
    dsimp only
    rw [more.decodeEntries limits depth _ hdepth hcount]
    exact budget_map fun _ => rfl

end

mutual

/-- What is on the wire can be written under other limits, as far as these admit it. -/
theorem Wired.encodeValue {value : Value} {item : Wire} (h : Wired lib maxBytes value item)
    (bytes : maxBytes ≤ limits.maxBytes) (depth count : Nat) :
    encodeValue lib limits value depth count = budget limits value.height value.count item depth count :=
  match h with
  | .basic appended => by
    rw [Codec.encodeValue]
    refine enter_bind fun hdepth hcount => ?_
    rw [appended]
    exact budget_pure hdepth hcount
  | .byteArray small opened => by
    rw [Codec.encodeValue]
    refine enter_bind fun hdepth hcount => ?_
    rw [require_true (by simpa using ⟨Nat.le_trans small.1 bytes, small.2⟩), opened]
    exact budget_pure hdepth hcount
  | .array plain valid elements opened h => by
    rw [Codec.encodeValue]
    refine enter_bind fun hdepth hcount => ?_
    rw [require_true (by rw [plain]; rfl), require_true valid, require_true elements, opened]
    show (Codec.encodeAll lib limits _ (depth + 1) (count + 1) >>= _) = _
    rw [h.encodeAll bytes depth _ hdepth hcount]
    exact budget_map fun _ => rfl
  | .dictionary basic valid opened h => by
    rw [Codec.encodeValue]
    refine enter_bind fun hdepth hcount => ?_
    rw [require_true (by simpa [basic] using valid), opened]
    show (Codec.encodeEntries lib limits _ _ _ (depth + 1) (count + 1) >>= _) = _
    rw [h.encodeEntries bytes depth _ hdepth hcount]
    exact budget_map fun _ => rfl
  | .struct filled h => by
    rw [Codec.encodeValue]
    refine enter_bind fun hdepth hcount => ?_
    rw [h.encodeAll bytes depth _ hdepth hcount]
    exact budget_map fun _ => by dsimp only; rw [require_true filled]; rfl
  | .variant valid opened h => by
    rw [Codec.encodeValue]
    refine enter_bind fun hdepth hcount => ?_
    rw [require_true valid, opened]
    show (Codec.encodeValue lib limits _ (depth + 1) (count + 1) >>= _) = _
    rw [h.encodeValue bytes (depth + 1), budget_succ]
    exact budget_map fun _ => rfl

theorem WiredAll.encodeAll {values : List Value} {items : List Wire} (h : WiredAll lib maxBytes values items)
    (bytes : maxBytes ≤ limits.maxBytes) (depth count : Nat) (hdepth : depth ≤ limits.maxDepth)
    (hcount : count ≤ limits.maxValues) :
    encodeAll lib limits values (depth + 1) count =
      budget limits (heights values) (counts values) items depth count :=
  match h with
  | .nil => budget_pure hdepth hcount
  | .cons h more => by
    rw [Codec.encodeAll, h.encodeValue bytes (depth + 1), budget_succ]
    refine budget_bind fun _ hcount => ?_
    dsimp only
    rw [more.encodeAll bytes depth _ hdepth hcount]
    exact budget_map fun _ => rfl

theorem WiredEntries.encodeEntries {keySignature valueSignature : Text} {entries : List (Value × Value)}
    {items : List Wire} (h : WiredEntries lib maxBytes keySignature valueSignature entries items)
    (bytes : maxBytes ≤ limits.maxBytes) (depth count : Nat) (hdepth : depth ≤ limits.maxDepth)
    (hcount : count ≤ limits.maxValues) :
    encodeEntries lib limits keySignature valueSignature entries (depth + 1) count =
      budget limits (entryHeights entries) (entryCounts entries) items depth count :=
  match h with
  | .nil => budget_pure hdepth hcount
  | .cons hkey hvalue more => by
    rw [Codec.encodeEntries, require_true (by simp)]
    show (Codec.encodeValue lib limits _ (depth + 1) count >>= _) = _
    rw [hkey.encodeValue bytes (depth + 1), budget_succ]
    refine budget_bind fun _ hcount => ?_
    dsimp only
    rw [hvalue.encodeValue bytes (depth + 1), budget_succ]
    refine budget_bind fun _ hcount => ?_
    dsimp only
    rw [more.encodeEntries bytes depth _ hdepth hcount]
    exact budget_map fun _ => rfl

end

-- ---------------------------------------------------------------------------
-- The encoder
-- ---------------------------------------------------------------------------

theorem require_eq_ok {condition : Bool} {failure : Failure} {u : Unit}
    (h : require condition failure = .ok u) :
    condition = true := by
  unfold require at h
  split at h
  · assumption
  · cases h

theorem enter_eq_ok {entered : Nat} (h : enter limits depth count = .ok entered) :
    depth ≤ limits.maxDepth ∧ entered = count + 1 ∧ entered ≤ limits.maxValues := by
  unfold enter at h
  split at h
  · cases h
  · split at h
    · cases h
    · obtain rfl := Except.ok.inj h
      exact ⟨by omega, rfl, by omega⟩

theorem cString_eq {text : Text} (h : (!text.contains '\x00') = true) : cString text = text := by
  have plain : ∀ c ∈ text, (c ≠ '\x00') = True := fun c there => by
    refine eq_true fun nul => ?_
    subst nul
    simp [there] at h
  exact List.takeWhile_eq_self_iff.mpr fun c there => by simp [plain c there]

/-- A text that is valid is not cut off. -/
theorem appendBasic_eq_ok {data data' : Basic} (h : appendBasic lib data = .ok data') : data' = data := by
  cases data with
  | string text =>
    simp only [appendBasic] at h
    split at h
    next valid =>
      obtain rfl := Except.ok.inj h
      rw [cString_eq (Bool.and_eq_true_iff.mp valid).1]
    next => cases h
  | objectPath path =>
    simp only [appendBasic] at h
    split at h
    next valid =>
      obtain rfl := Except.ok.inj h
      rw [cString_eq (Bool.and_eq_true_iff.mp valid).1]
    next => cases h
  | signatureValue signature =>
    simp only [appendBasic] at h
    split at h
    next valid =>
      obtain rfl := Except.ok.inj h
      rw [cString_eq (Bool.and_eq_true_iff.mp valid).1]
    next => cases h
  | _ => exact (Except.ok.inj h).symm

/-- What has been encoded, and what it took. -/
structure Spent (limits : Limits) (height size depth count count' : Nat) : Prop where
  depth : depth + height ≤ limits.maxDepth
  count : count' = count + size
  values : count' ≤ limits.maxValues

mutual

theorem encodeValue_eq_ok : ∀ (value : Value) {depth count count' : Nat} {item : Wire},
    encodeValue lib limits value depth count = .ok (item, count') →
      Wired lib limits.maxBytes value item ∧ Spent limits value.height value.count depth count count'
  | .empty, _, _, _, _, h => by
    rw [encodeValue] at h
    obtain ⟨_, -, h⟩ := except_bind_eq_ok h
    cases h
  | .basic data, _, _, _, _, h => by
    rw [encodeValue] at h
    obtain ⟨_, entered, h⟩ := except_bind_eq_ok h
    obtain ⟨_, appended, h⟩ := except_bind_eq_ok h
    obtain ⟨rfl, rfl⟩ := Prod.mk.inj (Except.ok.inj h)
    obtain ⟨hdepth, rfl, hvalues⟩ := enter_eq_ok entered
    obtain rfl := appendBasic_eq_ok appended
    exact ⟨.basic appended, hdepth, rfl, hvalues⟩
  | .byteArray bytes, _, _, _, _, h => by
    rw [encodeValue] at h
    obtain ⟨_, entered, h⟩ := except_bind_eq_ok h
    obtain ⟨_, small, h⟩ := except_bind_eq_ok h
    obtain ⟨_, opened, h⟩ := except_bind_eq_ok h
    obtain ⟨rfl, rfl⟩ := Prod.mk.inj (Except.ok.inj h)
    obtain ⟨hdepth, rfl, hvalues⟩ := enter_eq_ok entered
    have small := require_eq_ok small
    simp only [Bool.and_eq_true, decide_eq_true_eq] at small
    exact ⟨.byteArray small opened, hdepth, rfl, hvalues⟩
  | .array elementSignature values, _, _, _, _, h => by
    rw [encodeValue] at h
    obtain ⟨_, entered, h⟩ := except_bind_eq_ok h
    obtain ⟨_, plain, h⟩ := except_bind_eq_ok h
    obtain ⟨_, valid, h⟩ := except_bind_eq_ok h
    obtain ⟨_, elements, h⟩ := except_bind_eq_ok h
    obtain ⟨_, opened, h⟩ := except_bind_eq_ok h
    obtain ⟨⟨items, count'⟩, encoded, h⟩ := except_bind_eq_ok h
    obtain ⟨rfl, rfl⟩ := Prod.mk.inj (Except.ok.inj h)
    obtain ⟨hdepth, rfl, hvalues⟩ := enter_eq_ok entered
    obtain ⟨wired, spent⟩ := encodeAll_eq_ok values hdepth hvalues encoded
    have plain : misleading elementSignature = false := by simpa using require_eq_ok plain
    exact ⟨.array plain (require_eq_ok valid) (require_eq_ok elements) opened wired, spent.depth,
      by rw [spent.count, Value.count]; omega, spent.values⟩
  | .dictionary keySignature valueSignature entries, _, _, _, _, h => by
    rw [encodeValue] at h
    obtain ⟨_, entered, h⟩ := except_bind_eq_ok h
    obtain ⟨_, valid, h⟩ := except_bind_eq_ok h
    obtain ⟨_, opened, h⟩ := except_bind_eq_ok h
    obtain ⟨⟨items, count'⟩, encoded, h⟩ := except_bind_eq_ok h
    obtain ⟨rfl, rfl⟩ := Prod.mk.inj (Except.ok.inj h)
    obtain ⟨hdepth, rfl, hvalues⟩ := enter_eq_ok entered
    obtain ⟨wired, spent⟩ := encodeEntries_eq_ok entries hdepth hvalues encoded
    obtain ⟨valid, basic⟩ := Bool.and_eq_true_iff.mp (require_eq_ok valid)
    obtain ⟨valid, single⟩ := Bool.and_eq_true_iff.mp valid
    obtain ⟨key, rfl⟩ := List.length_eq_one_iff.mp (of_decide_eq_true single)
    exact ⟨.dictionary (by simpa using basic) valid opened wired, spent.depth,
      by rw [spent.count, Value.count]; omega, spent.values⟩
  | .struct fields, _, _, _, _, h => by
    rw [encodeValue] at h
    obtain ⟨_, entered, h⟩ := except_bind_eq_ok h
    obtain ⟨⟨items, count'⟩, encoded, h⟩ := except_bind_eq_ok h
    obtain ⟨_, filled, h⟩ := except_bind_eq_ok h
    obtain ⟨rfl, rfl⟩ := Prod.mk.inj (Except.ok.inj h)
    obtain ⟨hdepth, rfl, hvalues⟩ := enter_eq_ok entered
    obtain ⟨wired, spent⟩ := encodeAll_eq_ok fields hdepth hvalues encoded
    exact ⟨.struct (require_eq_ok filled) wired, spent.depth, by rw [spent.count, Value.count]; omega,
      spent.values⟩
  | .variant inner, _, _, _, _, h => by
    rw [encodeValue] at h
    obtain ⟨_, entered, h⟩ := except_bind_eq_ok h
    obtain ⟨_, valid, h⟩ := except_bind_eq_ok h
    obtain ⟨_, opened, h⟩ := except_bind_eq_ok h
    obtain ⟨⟨item, count'⟩, encoded, h⟩ := except_bind_eq_ok h
    obtain ⟨rfl, rfl⟩ := Prod.mk.inj (Except.ok.inj h)
    obtain ⟨-, rfl, -⟩ := enter_eq_ok entered
    obtain ⟨wired, spent⟩ := encodeValue_eq_ok inner encoded
    refine ⟨.variant (require_eq_ok valid) opened wired, ?_, by rw [spent.count, Value.count]; omega,
      spent.values⟩
    have := spent.depth
    rw [Value.height]
    omega

theorem encodeAll_eq_ok : ∀ (values : List Value) {depth count count' : Nat} {items : List Wire},
    depth ≤ limits.maxDepth → count ≤ limits.maxValues →
    encodeAll lib limits values (depth + 1) count = .ok (items, count') →
      WiredAll lib limits.maxBytes values items ∧ Spent limits (heights values) (counts values) depth
        count count'
  | [], _, _, _, _, hdepth, hvalues, h => by
    cases h
    exact ⟨.nil, hdepth, rfl, hvalues⟩
  | value :: values, _, _, _, _, hdepth, _, h => by
    rw [encodeAll] at h
    obtain ⟨⟨item, _⟩, first, h⟩ := except_bind_eq_ok h
    obtain ⟨⟨items, _⟩, others, h⟩ := except_bind_eq_ok h
    obtain ⟨rfl, rfl⟩ := Prod.mk.inj (Except.ok.inj h)
    obtain ⟨wired, spent⟩ := encodeValue_eq_ok value first
    obtain ⟨wiredAll, spentAll⟩ := encodeAll_eq_ok values hdepth spent.values others
    have below := spent.depth
    have belowAll := spentAll.depth
    refine ⟨.cons wired wiredAll, ?_, ?_, spentAll.values⟩
    · rw [heights]
      omega
    · rw [spentAll.count, spent.count, counts]
      omega

theorem encodeEntries_eq_ok : ∀ (entries : List (Value × Value)) {keySignature valueSignature : Text}
    {depth count count' : Nat} {items : List Wire}, depth ≤ limits.maxDepth → count ≤ limits.maxValues →
    encodeEntries lib limits keySignature valueSignature entries (depth + 1) count = .ok (items, count') →
      WiredEntries lib limits.maxBytes keySignature valueSignature entries items ∧
        Spent limits (entryHeights entries) (entryCounts entries) depth count count'
  | [], _, _, _, _, _, _, hdepth, hvalues, h => by
    cases h
    exact ⟨.nil, hdepth, rfl, hvalues⟩
  | (key, value) :: entries, _, _, _, _, _, _, hdepth, _, h => by
    rw [encodeEntries] at h
    obtain ⟨_, named, h⟩ := except_bind_eq_ok h
    obtain ⟨⟨keyItem, _⟩, first, h⟩ := except_bind_eq_ok h
    obtain ⟨⟨valueItem, _⟩, second, h⟩ := except_bind_eq_ok h
    obtain ⟨⟨items, _⟩, others, h⟩ := except_bind_eq_ok h
    obtain ⟨rfl, rfl⟩ := Prod.mk.inj (Except.ok.inj h)
    obtain ⟨wiredKey, spentKey⟩ := encodeValue_eq_ok key first
    obtain ⟨wiredValue, spentValue⟩ := encodeValue_eq_ok value second
    obtain ⟨wiredAll, spentAll⟩ := encodeEntries_eq_ok entries hdepth spentValue.values others
    have named := require_eq_ok named
    simp only [Bool.and_eq_true, decide_eq_true_eq] at named
    obtain ⟨rfl, rfl⟩ := named
    have belowKey := spentKey.depth
    have belowValue := spentValue.depth
    have belowAll := spentAll.depth
    refine ⟨.cons wiredKey wiredValue wiredAll, ?_, ?_, spentAll.values⟩
    · rw [entryHeights]
      omega
    · rw [spentAll.count, spentValue.count, spentKey.count, entryCounts]
      omega

end

-- ---------------------------------------------------------------------------
-- Messages
-- ---------------------------------------------------------------------------

mutual

theorem Wired.signature_eq {value : Value} {item : Wire} (h : Wired lib maxBytes value item) :
    item.signature = value.signature :=
  match h with
  | .basic _ | .byteArray _ _ | .array _ _ _ _ _ | .dictionary _ _ _ _ | .variant _ _ _ => by
    simp only [Wire.signature, Value.signature]
  | .struct _ h => by rw [Wire.signature, Value.signature, h.signatures_eq]

theorem WiredAll.signatures_eq {values : List Value} {items : List Wire}
    (h : WiredAll lib maxBytes values items) :
    itemSignatures items = signatures values :=
  match h with
  | .nil => rfl
  | .cons h more => by rw [itemSignatures, signatures, h.signature_eq, more.signatures_eq]

end

theorem WiredAll.map_signature {values : List Value} {items : List Wire}
    (h : WiredAll lib maxBytes values items) :
    items.map Wire.signature = values.map Value.signature :=
  match h with
  | .nil => rfl
  | .cons h more => by rw [List.map_cons, List.map_cons, h.signature_eq, more.map_signature]

/-- The arguments themselves are at depth 0. -/
theorem WiredAll.decodeArguments {values : List Value} {items : List Wire}
    (h : WiredAll lib maxBytes values items)
    (limits : Limits) (count : Nat) (hcount : count ≤ limits.maxValues) :
    Codec.decodeAll limits items 0 count =
      if (∀ value ∈ values, value.height ≤ limits.maxDepth) ∧ count + counts values ≤ limits.maxValues then
        .ok (values, count + counts values)
      else .error .lengthError :=
  match h with
  | .nil => (if_pos ⟨nofun, hcount⟩).symm
  | @WiredAll.cons _ _ value _ values _ h more => by
    rw [Codec.decodeAll, h.decodeValue limits 0 count, budget, Nat.zero_add]
    by_cases fits : value.height ≤ limits.maxDepth ∧ count + value.count ≤ limits.maxValues
    · rw [if_pos fits]
      show (Codec.decodeAll limits _ 0 (count + value.count) >>= _) = _
      rw [more.decodeArguments limits _ fits.2]
      have same : ((∀ other ∈ value :: values, other.height ≤ limits.maxDepth) ∧
            count + counts (value :: values) ≤ limits.maxValues) ↔
          (∀ other ∈ values, other.height ≤ limits.maxDepth) ∧
            count + value.count + counts values ≤ limits.maxValues := by
        rw [List.forall_mem_cons, counts, Nat.add_assoc]
        exact ⟨fun admits => ⟨admits.1.2, admits.2⟩, fun admits => ⟨⟨fits.1, admits.1⟩, admits.2⟩⟩
      by_cases admits : (∀ other ∈ values, other.height ≤ limits.maxDepth) ∧
          count + value.count + counts values ≤ limits.maxValues
      · rw [if_pos admits, if_pos (same.mpr admits), counts, ← Nat.add_assoc]
        rfl
      · rw [if_neg admits, if_neg fun more => admits (same.mp more)]
        rfl
    · have exceeds : ¬((∀ other ∈ value :: values, other.height ≤ limits.maxDepth) ∧
          count + counts (value :: values) ≤ limits.maxValues) := by
        rintro ⟨depth, values⟩
        rw [counts] at values
        exact fits ⟨depth _ List.mem_cons_self, by omega⟩
      rw [if_neg fits, if_neg exceeds]
      rfl

/-- A message that is not refused. -/
structure Sent (lib : Libdbus) (limits : Limits) (values : List Value) (count : Nat)
    (items message : List Wire) :
    Prop where
  wired : WiredAll lib limits.maxBytes values items
  depth : ∀ value ∈ values, value.height ≤ limits.maxDepth
  values : count + counts values ≤ limits.maxValues
  size : ∃ size, messageSize lib message = .ok size ∧ size ≤ limits.maxBytes

theorem encodeFrom_eq_ok (values : List Value) : ∀ {message sent : List Wire} {count : Nat},
    count ≤ limits.maxValues → encodeFrom lib limits message values count = .ok (some sent) →
      ∃ items, sent = message ++ items ∧ Sent lib limits values count items sent := by
  induction values with
  | nil =>
    intro message sent count hcount h
    rw [encodeFrom] at h
    obtain ⟨size, measured, h⟩ := except_bind_eq_ok h
    split at h
    next small =>
      obtain rfl := Option.some.inj (Except.ok.inj h)
      exact ⟨[], (List.append_nil _).symm, .nil, nofun, hcount, size, measured, small⟩
    next => cases h
  | cons value values ih =>
    intro message sent count _ h
    rw [encodeFrom] at h
    split at h
    · cases h
    · cases h
    next item count' encoded =>
      obtain ⟨size, -, h⟩ := except_bind_eq_ok h
      split at h
      · cases h
      · obtain ⟨wired, spent⟩ := encodeValue_eq_ok value encoded
        obtain ⟨items, rfl, sent⟩ := ih spent.values h
        refine ⟨item :: items, List.append_assoc .., .cons wired sent.wired, ?_, ?_, sent.size⟩
        · refine List.forall_mem_cons.mpr ⟨?_, sent.depth⟩
          have := spent.depth
          omega
        · have := sent.values
          rw [spent.count] at this
          rw [counts]
          omega

/-- Under other limits the depth and the number of values decide. -/
theorem encodeFrom_eq_ite {other : Limits} (bytes : limits.maxBytes ≤ other.maxBytes) (values : List Value) :
    ∀ {message sent : List Wire} {count count' : Nat},
      encodeFrom lib limits message values count = .ok (some sent) → count' ≤ other.maxValues →
        encodeFrom lib other message values count' =
          if (∀ value ∈ values, value.height ≤ other.maxDepth) ∧ count' + counts values ≤ other.maxValues then
            .ok (some sent)
          else .ok none := by
  induction values with
  | nil =>
    intro message sent count count' h hcount
    rw [encodeFrom] at h
    obtain ⟨size, measured, h⟩ := except_bind_eq_ok h
    split at h
    next small =>
      obtain rfl := Option.some.inj (Except.ok.inj h)
      rw [if_pos ⟨nofun, hcount⟩, encodeFrom, measured]
      show Except.ok (if size ≤ other.maxBytes then _ else _) = _
      rw [if_pos (Nat.le_trans small bytes)]
    next => cases h
  | cons value values ih =>
    intro message sent count count' h hcount
    rw [encodeFrom] at h
    split at h
    · cases h
    · cases h
    next item spent encoded =>
      obtain ⟨size, measured, h⟩ := except_bind_eq_ok h
      split at h
      · cases h
      next small =>
        obtain ⟨wired, -⟩ := encodeValue_eq_ok value encoded
        rw [encodeFrom, wired.encodeValue bytes 0 count', budget, Nat.zero_add]
        by_cases fits : value.height ≤ other.maxDepth ∧ count' + value.count ≤ other.maxValues
        · rw [if_pos fits]
          dsimp only
          rw [measured]
          show (if other.maxBytes < size then _ else _) = _
          rw [if_neg (by omega), ih h fits.2]
          refine if_congr ?_ rfl rfl
          rw [List.forall_mem_cons, counts, Nat.add_assoc]
          exact ⟨fun admits => ⟨⟨fits.1, admits.1⟩, admits.2⟩, fun admits => ⟨admits.1.2, admits.2⟩⟩
        · rw [if_neg fits, if_neg]
          rintro ⟨depth, size⟩
          rw [counts] at size
          exact fits ⟨depth _ List.mem_cons_self, by omega⟩

theorem admits_iff {arguments : List Value} : limits.Admits arguments ↔
    (∀ value ∈ arguments, value.height ≤ limits.maxDepth) ∧ 0 + counts arguments ≤ limits.maxValues := by
  rw [Nat.zero_add]
  exact ⟨fun h => ⟨h.depth, h.values⟩, fun h => ⟨h.1, h.2⟩⟩

/-- What has been encoded is decoded again. Under limits of no fewer bytes, depth and number of
values decide, for both directions. -/
structure RoundTrip (lib : Libdbus) (limits : Limits) (arguments : List Value) (message : List Wire) :
    Prop where
  decoded : decodeArguments lib limits message = .ok (.ok arguments)
  signatures : message.map Wire.signature = arguments.map Value.signature
  admitted : limits.Admits arguments
  accepts : ∀ other : Limits, limits.maxBytes ≤ other.maxBytes → other.Admits arguments →
    encodeArguments lib other arguments = .ok (some message) ∧ decodeArguments lib other message =
      .ok (.ok arguments)
  refuses : ∀ other : Limits, ¬other.Admits arguments →
    (limits.maxBytes ≤ other.maxBytes → encodeArguments lib other arguments = .ok none) ∧
      decodeArguments lib other message = .ok (.error .resourceLimit)

theorem codec_roundTrip (lib : Libdbus) (limits : Limits) (arguments : List Value) :
    (∀ message, encodeArguments lib limits arguments = .ok (some message) →
    RoundTrip lib limits arguments message) ∧
      (¬limits.Admits arguments → ∀ message, encodeArguments lib limits arguments ≠ .ok (some message)) := by
  have admitted : ∀ {sent : List Wire}, encodeArguments lib limits arguments = .ok (some sent) →
      limits.Admits arguments := fun encoded => by
    obtain ⟨items, -, sent⟩ := encodeFrom_eq_ok arguments (Nat.zero_le limits.maxValues) encoded
    exact admits_iff.mpr ⟨sent.depth, sent.values⟩
  refine ⟨fun message encoded => ?_, fun violates _ encoded => violates (admitted encoded)⟩
  obtain ⟨_, rfl, sent⟩ := encodeFrom_eq_ok arguments (Nat.zero_le limits.maxValues) encoded
  obtain ⟨size, measured, small⟩ := sent.size
  have accepted : ∀ other : Limits, limits.maxBytes ≤ other.maxBytes → other.Admits arguments →
      decodeArguments lib other message = .ok (.ok arguments) := fun other bytes admits => by
    have decoded := sent.wired.decodeArguments other 0 (Nat.zero_le _)
    rw [if_pos (admits_iff.mp admits)] at decoded
    rw [decodeArguments, measured]
    show (if other.maxBytes < size then _ else _) = _
    rw [if_neg (by omega), decoded]
    rfl
  refine ⟨accepted limits (Nat.le_refl _) (admitted encoded), sent.wired.map_signature, admitted encoded,
    fun other bytes admits => ⟨?_, accepted other bytes admits⟩, fun other violates => ⟨fun bytes => ?_, ?_⟩⟩
  · exact (encodeFrom_eq_ite bytes arguments encoded (Nat.zero_le _)).trans (if_pos (admits_iff.mp admits))
  · refine (encodeFrom_eq_ite bytes arguments encoded (Nat.zero_le _)).trans (if_neg fun fits => ?_)
    exact violates (admits_iff.mpr fits)
  · have decoded := sent.wired.decodeArguments other 0 (Nat.zero_le _)
    rw [if_neg fun fits => violates (admits_iff.mpr fits)] at decoded
    rw [decodeArguments, measured]
    show (if other.maxBytes < size then _ else _) = _
    rw [decoded]
    split <;> rfl

/-- A dictionary of variants, an empty array, an empty dictionary, bytes and a struct. -/
def nested : List Value :=
  [.dictionary ['s'] ['v'] [(.basic (.string ['k']), .variant (.basic (.int32 5)))], .array ['a', 'y'] [],
    .dictionary ['o'] ['a', '{', 's', 'v', '}'] [], .byteArray [1, 2], .struct [.basic (.boolean true),
      .byteArray []]]

/-- libdbus, as far as these values need it; their message is taken to be of 256 bytes, well
within the limit that `nested` is encoded with. -/
def sample : Libdbus where
  signatureValidateSingle signature :=
    [['s'], ['v'], ['i'], ['o'], ['a', 'y'], ['a', '{', 's', 'v', '}']].contains signature
  signatureValidate _ := false
  validateUtf8 text := text.all (·.toNat < 128)
  validatePath _ := false
  opens _ := true
  marshal _ := some 256

theorem codec_roundTrip_nested : ∃ message, encodeArguments sample ⟨1024, 2, 12⟩ nested = .ok (some message) ∧
    decodeArguments sample ⟨1024, 2, 12⟩ message = .ok (.ok nested) :=
  ⟨_, rfl, ((codec_roundTrip sample ⟨1024, 2, 12⟩ nested).1 _ rfl).decoded⟩

end Dmn.Dbus.Codec
