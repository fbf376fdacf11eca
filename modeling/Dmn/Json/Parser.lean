import Dmn.Ancs.Utf8
import Mathlib.Data.Int.Log
import Mathlib.Data.Rat.Floor

/-!
# Dmn_JsonValue

The values and `Parser`. What `m_text` holds from `m_pos` on is the list of bytes that a function
takes, and what it leaves is part of its result: once a function has returned `nullopt`, the
position is not read any more.
-/

namespace Dmn.Json

/-- The value of a `double`, `none` where it is not finite. No function here tells -0 from 0. -/
abbrev Double := Option ℚ

inductive JsonValue
  | null
  | bool (value : Bool)
  | number (value : Double)
  | string (value : List UInt8)
  | array (items : List JsonValue)
  | object (members : List (List UInt8 × JsonValue))

def ascii (c : Char) : UInt8 := UInt8.ofNat c.toNat

def quote : Char := '\x22'
def backslash : Char := '\x5c'

/-- A member replaces one of its key, where that stands. -/
def set (object : List (List UInt8 × JsonValue)) (key : List UInt8) (value : JsonValue) :
    List (List UInt8 × JsonValue) :=
  match object with
  | [] => [(key, value)]
  | member :: object => if member.1 = key then (member.1, value) :: object else member :: set object key value

-- ---------------------------------------------------------------------------
-- Numbers
-- ---------------------------------------------------------------------------

def roundHalfEven (q : ℚ) : ℤ :=
  let below := ⌊q⌋
  if q - below < 1 / 2 then below
  else if 1 / 2 < q - below then below + 1
  else if below % 2 = 0 then below else below + 1

/-- The nearest `double`, of 53 bits and not below the subnormal ones; of two, the even one. -/
def toDouble (q : ℚ) : Double :=
  let unit : ℚ := 2 ^ max (Int.log 2 |q| - 52) (-1074)
  let rounded := roundHalfEven (q / unit) * unit
  if |rounded| < 2 ^ 1024 then some rounded else none

inductive Sign
  | plus
  | minus
  deriving DecidableEq

structure Exponent where
  upper : Bool
  sign : Option Sign
  digits : List (Fin 10)
  deriving DecidableEq

/-- The parts of a decimal number. -/
structure Numeral where
  sign : Option Sign
  whole : List (Fin 10)
  fraction : Option (List (Fin 10))
  exponent : Option Exponent
  deriving DecidableEq

namespace Numeral

def signed (sign : Option Sign) (n : ℤ) : ℤ := if sign = some .minus then -n else n

def ofDigits (digits : List (Fin 10)) : ℕ := digits.foldl (fun (n : ℕ) (digit : Fin 10) => n * 10 + digit.val) 0

def mantissa (n : Numeral) : List (Fin 10) := n.whole ++ n.fraction.getD []

def value (n : Numeral) : ℚ :=
  let scale := (n.exponent.elim 0 fun e => signed e.sign (ofDigits e.digits)) - (n.fraction.getD []).length
  signed n.sign (ofDigits n.mantissa) * 10 ^ scale

end Numeral

def readSign : List UInt8 → Option Sign × List UInt8
  | [] => (none, [])
  | byte :: rest =>
    if byte = ascii '+' then (some .plus, rest)
    else if byte = ascii '-' then (some .minus, rest)
    else (none, byte :: rest)

def digit (byte : UInt8) : Option (Fin 10) :=
  if h : 48 ≤ byte.toNat ∧ byte.toNat < 58 then some ⟨byte.toNat - 48, by omega⟩ else none

def readDigits : List UInt8 → List (Fin 10) × List UInt8
  | [] => ([], [])
  | byte :: rest =>
    match digit byte with
    | none => ([], byte :: rest)
    | some d => (d :: (readDigits rest).1, (readDigits rest).2)

def readFraction : List UInt8 → Option (List (Fin 10)) × List UInt8
  | [] => (none, [])
  | byte :: rest =>
    if byte = ascii '.' then (some (readDigits rest).1, (readDigits rest).2) else (none, byte :: rest)

def readExponent : List UInt8 → Option Exponent × List UInt8
  | [] => (none, [])
  | byte :: rest =>
    if byte = ascii 'e' ∨ byte = ascii 'E' then
      let (sign, signless) := readSign rest
      let (digits, after) := readDigits signless
      if digits = [] then (none, byte :: rest) else (some ⟨byte = ascii 'E', sign, digits⟩, after)
    else (none, byte :: rest)

def readNumeral (text : List UInt8) : Numeral × List UInt8 :=
  let (sign, signless) := readSign text
  let (whole, wholeless) := readDigits signless
  let (fraction, fractionless) := readFraction wholeless
  let (exponent, rest) := readExponent fractionless
  (⟨sign, whole, fraction, exponent⟩, rest)

/-- `strtod` of a text that has digits, signs, periods and the letter e only: the value, and where it ends. -/
def strtod (text : List UInt8) : Double × List UInt8 :=
  let (numeral, rest) := readNumeral text
  if numeral.mantissa = [] then (some 0, text) else (toDouble numeral.value, rest)

-- ---------------------------------------------------------------------------
-- Scanning
-- ---------------------------------------------------------------------------

def kMaximumDepth : ℕ := 32

def isSpace (byte : UInt8) : Bool :=
  byte = ascii ' ' || byte = ascii '\t' || byte = ascii '\n' || byte = ascii '\r'

def skipSpace (m : List UInt8) : List UInt8 := m.dropWhile isSpace

def consume (expected : UInt8) (m : List UInt8) : Bool × List UInt8 :=
  match skipSpace m with
  | [] => (false, [])
  | byte :: rest => if byte = expected then (true, rest) else (false, byte :: rest)

/-- What is left after `word`. -/
def literal (word : List Char) (m : List UInt8) : Option (List UInt8) :=
  if m.take word.length = word.map ascii then some (m.drop word.length) else none

def isNumberByte (byte : UInt8) : Bool :=
  (digit byte).isSome || byte = ascii '.' || byte = ascii 'e' || byte = ascii 'E' || byte =
    ascii '+' || byte = ascii '-'

def parseNumber (m : List UInt8) : Option (JsonValue × List UInt8) :=
  let minus := if m.head? = some (ascii '-') then [ascii '-'] else []
  let unsigned := m.drop minus.length
  let token := minus ++ unsigned.takeWhile isNumberByte
  if token = [] then none
  else
    let (value, tail) := strtod token
    if tail ≠ [] ∨ value = none then none else some (.number value, unsigned.dropWhile isNumberByte)

-- ---------------------------------------------------------------------------
-- Strings
-- ---------------------------------------------------------------------------

def appendUtf8 (codePoint : ℕ) : List UInt8 :=
  if codePoint < 0x80 then [UInt8.ofNat codePoint]
  else if codePoint < 0x800 then [UInt8.ofNat (0xc0 ||| codePoint >>> 6),
    UInt8.ofNat (0x80 ||| codePoint &&& 0x3f)]
  else if codePoint < 0x10000 then
    [UInt8.ofNat (0xe0 ||| codePoint >>> 12), UInt8.ofNat (0x80 ||| codePoint >>> 6 &&& 0x3f),
      UInt8.ofNat (0x80 ||| codePoint &&& 0x3f)]
  else
    [UInt8.ofNat (0xf0 ||| codePoint >>> 18), UInt8.ofNat (0x80 ||| codePoint >>> 12 &&& 0x3f),
      UInt8.ofNat (0x80 ||| codePoint >>> 6 &&& 0x3f), UInt8.ofNat (0x80 ||| codePoint &&& 0x3f)]

def minimum (length : ℕ) : ℕ := if length = 2 then 0x80 else if length = 3 then 0x800 else 0x10000

/-- Of the sequence a text starts with. Its leads and its loop over the bytes that follow are those
of the validator of the attributes. -/
def utf8SequenceLength : List UInt8 → ℕ
  | [] => 0
  | lead :: rest =>
    if lead < 0x80 then 1
    else match Ancs.leading lead with
      | none => 0
      | some (count, codePoint) =>
        if count > rest.length then 0
        else match Ancs.continued codePoint (rest.take count) with
          | none => 0
          | some codePoint =>
            if codePoint < minimum (count + 1) ∨ codePoint > 0x10ffff ∨ codePoint ≥ 0xd800 ∧
              codePoint ≤ 0xdfff then 0
            else count + 1

def hexDigit (byte : UInt8) : Option ℕ :=
  if byte ≥ ascii '0' ∧ byte ≤ ascii '9' then some (byte.toNat - 48)
  else if byte ≥ ascii 'a' ∧ byte ≤ ascii 'f' then some (byte.toNat - 97 + 10)
  else if byte ≥ ascii 'A' ∧ byte ≤ ascii 'F' then some (byte.toNat - 65 + 10)
  else none

/-- Four digits of 4 bits. -/
def parseHex4 : List UInt8 → Option (ℕ × List UInt8)
  | a :: b :: c :: d :: rest => do
    let i ← hexDigit a
    let j ← hexDigit b
    let k ← hexDigit c
    let l ← hexDigit d
    some (((i * 16 + j) * 16 + k) * 16 + l, rest)
  | _ => none

/-- What follows the first u of an escape. -/
def parseUnicode (m : List UInt8) : Option (List UInt8 × List UInt8) := do
  let (high, m) ← parseHex4 m
  if high ≥ 0xd800 ∧ high ≤ 0xdbff then
    let m ← literal [backslash, 'u'] m
    let (low, m) ← parseHex4 m
    if low < 0xdc00 ∨ low > 0xdfff then none
    else some (appendUtf8 (0x10000 + (high - 0xd800) <<< 10 + (low - 0xdc00)), m)
  else if high ≥ 0xdc00 ∧ high ≤ 0xdfff then none
  else some (appendUtf8 high, m)

/-- What an escape of one character stands for. -/
def unescape (escape : UInt8) : Option UInt8 :=
  if escape = ascii quote ∨ escape = ascii backslash ∨ escape = ascii '/' then some escape
  else if escape = ascii 'b' then some 0x08
  else if escape = ascii 'f' then some 0x0c
  else if escape = ascii 'n' then some 0x0a
  else if escape = ascii 'r' then some 0x0d
  else if escape = ascii 't' then some 0x09
  else none

/-- The cases of `escape`: what goes to the string, and what is left. -/
def parseEscape (escape : UInt8) (m : List UInt8) : Option (List UInt8 × List UInt8) :=
  match unescape escape with
  | some byte => some ([byte], m)
  | none => if escape = ascii 'u' then parseUnicode m else none

theorem parseHex4_length {m rest : List UInt8} {value : ℕ} (h : parseHex4 m = some (value, rest)) :
    rest.length ≤ m.length := by
  unfold parseHex4 at h
  split at h
  · simp only [Option.bind_eq_bind, Option.bind_eq_some_iff, Option.some.injEq, Prod.mk.injEq] at h
    obtain ⟨-, -, -, -, -, -, -, -, -, rfl⟩ := h
    simp only [List.length_cons]
    omega
  · cases h

theorem literal_length {word : List Char} {m rest : List UInt8} (h : literal word m = some rest) :
    rest.length ≤ m.length := by
  unfold literal at h
  split at h
  · rw [← Option.some.inj h, List.length_drop]
    exact Nat.sub_le _ _
  · cases h

theorem parseUnicode_length {m rest bytes : List UInt8} (h : parseUnicode m = some (bytes, rest)) :
    rest.length ≤ m.length := by
  unfold parseUnicode at h
  obtain ⟨⟨high, unhigh⟩, hhigh, h⟩ := Option.bind_eq_some_iff.mp h
  have hshort := parseHex4_length hhigh
  dsimp only at h
  split at h
  · obtain ⟨unmarked, hmark, h⟩ := Option.bind_eq_some_iff.mp h
    obtain ⟨⟨low, unlow⟩, hlow, h⟩ := Option.bind_eq_some_iff.mp h
    have hmarked := literal_length hmark
    have hlower := parseHex4_length hlow
    dsimp only at h
    split at h
    · cases h
    · obtain ⟨-, rfl⟩ := Prod.mk.inj (Option.some.inj h)
      omega
  · split at h
    · cases h
    · obtain ⟨-, rfl⟩ := Prod.mk.inj (Option.some.inj h)
      exact hshort

theorem parseEscape_length {escape : UInt8} {m rest bytes : List UInt8}
    (h : parseEscape escape m = some (bytes, rest)) :
    rest.length ≤ m.length := by
  unfold parseEscape at h
  split at h
  · obtain ⟨-, rfl⟩ := Prod.mk.inj (Option.some.inj h)
    exact le_rfl
  · split at h
    · exact parseUnicode_length h
    · cases h

/-- The loop of `parseString`. -/
def parseChars (out : List UInt8) (m : List UInt8) : Option (List UInt8 × List UInt8) :=
  match m with
  | [] => none
  | byte :: rest =>
    if byte = ascii quote then some (out, rest)
    else if byte < 0x20 then none
    else if byte ≠ ascii backslash then
      if utf8SequenceLength (byte :: rest) = 0 then none
      else
        parseChars (out ++ (byte :: rest).take (utf8SequenceLength (byte :: rest)))
          ((byte :: rest).drop (utf8SequenceLength (byte :: rest)))
    else match rest with
      | [] => none
      | escape :: rest =>
        match _h : parseEscape escape rest with
        | none => none
        | some (bytes, rest) => parseChars (out ++ bytes) rest
termination_by m.length
decreasing_by
  · rw [List.length_drop, List.length_cons]
    omega
  · have := parseEscape_length _h
    simp only [List.length_cons]
    omega

def parseString (m : List UInt8) : Option (List UInt8 × List UInt8) :=
  match consume (ascii quote) m with
  | (false, _) => none
  | (true, m) => parseChars [] m

-- ---------------------------------------------------------------------------
-- Values
-- ---------------------------------------------------------------------------

/-- The loop of `parseArray`, which goes round at most once for each byte. -/
def parseItems (parseValue : List UInt8 → Option (JsonValue × List UInt8)) (bytes : ℕ) (array : List JsonValue)
    (m : List UInt8) : Option (List JsonValue × List UInt8) :=
  match bytes with
  | 0 => none
  | bytes + 1 =>
    match parseValue m with
    | none => none
    | some (item, m) =>
      match consume (ascii ',') m with
      | (true, m) => parseItems parseValue bytes (array ++ [item]) m
      | (false, m) => some (array ++ [item], m)

def parseArray (parseValue : List UInt8 → Option (JsonValue × List UInt8)) (m : List UInt8) :
    Option (JsonValue × List UInt8) :=
  match consume (ascii ']') (consume (ascii '[') m).2 with
  | (true, m) => some (.array [], m)
  | (false, inner) =>
    match parseItems parseValue m.length [] inner with
    | none => none
    | some (array, m) =>
      match consume (ascii ']') m with
      | (true, m) => some (.array array, m)
      | (false, _) => none

/-- The loop of `parseObject`. -/
def parseMembers (parseValue : List UInt8 → Option (JsonValue × List UInt8)) (bytes : ℕ)
    (object : List (List UInt8 × JsonValue)) (m : List UInt8) :
    Option (List (List UInt8 × JsonValue) × List UInt8) :=
  match bytes with
  | 0 => none
  | bytes + 1 =>
    match parseString (skipSpace m) with
    | none => none
    | some (key, m) =>
      match consume (ascii ':') m with
      | (false, _) => none
      | (true, m) =>
        match parseValue m with
        | none => none
        | some (value, m) =>
          match consume (ascii ',') m with
          | (true, m) => parseMembers parseValue bytes (set object key value) m
          | (false, m) => some (set object key value, m)

def parseObject (parseValue : List UInt8 → Option (JsonValue × List UInt8)) (m : List UInt8) :
    Option (JsonValue × List UInt8) :=
  match consume (ascii '}') (consume (ascii '{') m).2 with
  | (true, m) => some (.object [], m)
  | (false, inner) =>
    match parseMembers parseValue m.length [] inner with
    | none => none
    | some (object, m) =>
      match consume (ascii '}') m with
      | (true, m) => some (.object object, m)
      | (false, _) => none

/-- `levels` is how many there are from `depth` to the deepest, both included. -/
def parseValue : (levels : ℕ) → List UInt8 → Option (JsonValue × List UInt8)
  | 0, _ => none
  | levels + 1, m =>
    match skipSpace m with
    | [] => none
    | current :: rest =>
      if current = ascii '{' then parseObject (parseValue levels) (current :: rest)
      else if current = ascii '[' then parseArray (parseValue levels) (current :: rest)
      else if current = ascii quote then (parseString (current :: rest)).map fun (text, m) => (.string text, m)
      else match literal ['t', 'r', 'u', 'e'] (current :: rest) with
        | some m => some (.bool true, m)
        | none =>
          match literal ['f', 'a', 'l', 's', 'e'] (current :: rest) with
          | some m => some (.bool false, m)
          | none =>
            match literal ['n', 'u', 'l', 'l'] (current :: rest) with
            | some m => some (.null, m)
            | none => parseNumber (current :: rest)

def parse (text : List UInt8) : Option JsonValue :=
  match parseValue (kMaximumDepth + 1) text with
  | none => none
  | some (value, m) => if skipSpace m = [] then some value else none

end Dmn.Json
