import Dmn.Json.Parser
import Mathlib.Data.List.Dedup

/-!
# JSON texts

The grammar of RFC 8259 over characters, and what its texts denote. What a number is, is a
parameter: the grammar has its own numbers, and `strtod` has those that it converts.
-/

namespace Dmn.Json

/-- UTF-8. -/
def encode (text : List Char) : List UInt8 := text.flatMap String.utf8EncodeChar

def Space (text : List Char) : Prop := ∀ c ∈ text, c = ' ' ∨ c = '\t' ∨ c = '\n' ∨ c = '\r'

-- ---------------------------------------------------------------------------
-- Numbers
-- ---------------------------------------------------------------------------

def digitChar (d : Fin 10) : Char := Char.ofNat (48 + d)

def Sign.text : Option Sign → List Char
  | none => []
  | some .plus => ['+']
  | some .minus => ['-']

def Exponent.text (e : Exponent) : List Char :=
  (if e.upper then 'E' else 'e') :: (Sign.text e.sign ++ e.digits.map digitChar)

namespace Numeral

def text (n : Numeral) : List Char :=
  Sign.text n.sign ++ n.whole.map digitChar ++ (n.fraction.elim [] fun digits => '.' :: digits.map digitChar) ++
    n.exponent.elim [] Exponent.text

/-- An exponent has digits. -/
def Exponential (n : Numeral) : Prop := ∀ e ∈ n.exponent, e.digits ≠ []

/-- The numbers of JSON: no plus sign, no leading zero, digits on both sides of a point. -/
structure Plain (n : Numeral) : Prop where
  sign : n.sign ≠ some .plus
  whole : n.whole ≠ []
  zero : n.whole.head? = some 0 → n.whole = [0]
  fraction : n.fraction ≠ some []
  exponent : n.Exponential

/-- The numbers of `strtod`: there is a digit on one side. -/
structure Decimal (n : Numeral) : Prop where
  mantissa : n.mantissa ≠ []
  exponent : n.Exponential

theorem Plain.decimal {n : Numeral} (h : n.Plain) : n.Decimal :=
  ⟨fun hnone => h.whole (List.append_eq_nil_iff.mp hnone).1, h.exponent⟩

end Numeral

-- ---------------------------------------------------------------------------
-- Strings
-- ---------------------------------------------------------------------------

def hexValue (c : Char) : Option ℕ :=
  if '0'.toNat ≤ c.toNat ∧ c.toNat ≤ '9'.toNat then some (c.toNat - 48)
  else if 'a'.toNat ≤ c.toNat ∧ c.toNat ≤ 'f'.toNat then some (c.toNat - 87)
  else if 'A'.toNat ≤ c.toNat ∧ c.toNat ≤ 'F'.toNat then some (c.toNat - 55)
  else none

inductive Hex4 : List Char → ℕ → Prop
  | digits {a b c d : Char} {i j k l : ℕ} (ha : hexValue a = some i) (hb : hexValue b = some j)
      (hc : hexValue c = some k) (hd : hexValue d = some l) : Hex4 [a, b, c,
        d] (((i * 16 + j) * 16 + k) * 16 + l)

/-- What an escape of one character denotes. -/
def escaped (c : Char) : Option Char :=
  if c = quote ∨ c = backslash ∨ c = '/' then some c
  else if c = 'b' then some '\x08'
  else if c = 'f' then some '\x0c'
  else if c = 'n' then some '\n'
  else if c = 'r' then some '\r'
  else if c = 't' then some '\t'
  else none

/-- What is between the quotes, and the characters it denotes. -/
inductive Chars : List Char → List Char → Prop
  | nil : Chars [] []
  | plain {c : Char} {s cs : List Char} (hquote : c ≠ quote) (hbackslash : c ≠ backslash)
      (hcontrol : 0x20 ≤ c.toNat) (h : Chars s cs) : Chars (c :: s) (c :: cs)
  | escape {e c : Char} {s cs : List Char} (he : escaped e = some c) (h : Chars s cs) :
      Chars (backslash :: e :: s) (c :: cs)
  | unicode {c : Char} {x s cs : List Char} (hx : Hex4 x c.toNat) (h : Chars s cs) :
      Chars (backslash :: 'u' :: (x ++ s)) (c :: cs)
  -- A pair of surrogates.
  | pair {c : Char} {x y s cs : List Char} {high low : ℕ} (hx : Hex4 x high) (hy : Hex4 y low)
      (hhigh : 0xd800 ≤ high ∧ high ≤ 0xdbff) (hlow : 0xdc00 ≤ low ∧ low ≤ 0xdfff)
      (hc : c.toNat = 0x10000 + (high - 0xd800) * 0x400 + (low - 0xdc00)) (h : Chars s cs) :
      Chars (backslash :: 'u' :: (x ++ backslash :: 'u' :: (y ++ s))) (c :: cs)

-- ---------------------------------------------------------------------------
-- Values
-- ---------------------------------------------------------------------------

/-- The latest value of a key. -/
def latest (members : List (List UInt8 × JsonValue)) (key : List UInt8) : JsonValue :=
  (members.reverse.lookup key).getD .null

/-- Each key where it comes first, with its latest value. -/
def merged (members : List (List UInt8 × JsonValue)) : List (List UInt8 × JsonValue) :=
  (members.map Prod.fst).reverse.dedup.reverse.map fun key => (key, latest members key)

mutual

/-- `s` is a text of `v`, in which no value is more than `d` levels below `v`. -/
inductive Text (Number : Numeral → Prop) : ℕ → List Char → JsonValue → Prop
  | nullText {d : ℕ} : Text Number d ['n', 'u', 'l', 'l'] .null
  | trueText {d : ℕ} : Text Number d ['t', 'r', 'u', 'e'] (.bool true)
  | falseText {d : ℕ} : Text Number d ['f', 'a', 'l', 's', 'e'] (.bool false)
  | number {d : ℕ} {n : Numeral} {q : ℚ} (hn : Number n) (hq : toDouble n.value = some q) :
      Text Number d n.text (.number (some q))
  | string {d : ℕ} {s cs : List Char} (h : Chars s cs) :
      Text Number d (quote :: (s ++ [quote])) (.string (encode cs))
  | emptyArray {d : ℕ} {w : List Char} (hw : Space w) : Text Number d ('[' :: (w ++ [']'])) (.array [])
  | array {d : ℕ} {s : List Char} {vs : List JsonValue} (h : Items Number d s vs) :
      Text Number (d + 1) ('[' :: (s ++ [']'])) (.array vs)
  | emptyObject {d : ℕ} {w : List Char} (hw : Space w) : Text Number d ('{' :: (w ++ ['}'])) (.object [])
  | object {d : ℕ} {s : List Char} {ms : List (List UInt8 × JsonValue)} (h : Members Number d s ms) :
      Text Number (d + 1) ('{' :: (s ++ ['}'])) (.object (merged ms))

inductive Items (Number : Numeral → Prop) : ℕ → List Char → List JsonValue → Prop
  | last {d : ℕ} {w s w' : List Char} {v : JsonValue} (hw : Space w) (hv : Text Number d s v) (hw' : Space w') :
      Items Number d (w ++ s ++ w') [v]
  | more {d : ℕ} {w s w' r : List Char} {v : JsonValue} {vs : List JsonValue} (hw : Space w)
      (hv : Text Number d s v) (hw' : Space w') (h : Items Number d r vs) :
      Items Number d (w ++ s ++ w' ++ ',' :: r) (v :: vs)

inductive Members (Number : Numeral → Prop) : ℕ → List Char → List (List UInt8 × JsonValue) → Prop
  | last {d : ℕ} {w k w₁ w₂ s w₃ key : List Char} {v : JsonValue} (hw : Space w)
      (hk : Chars k key) (hw₁ : Space w₁) (hw₂ : Space w₂) (hv : Text Number d s v) (hw₃ : Space w₃) :
      Members Number d (w ++ quote :: (k ++ quote :: (w₁ ++ ':' :: (w₂ ++ s ++ w₃)))) [(encode key, v)]
  | more {d : ℕ} {w k w₁ w₂ s w₃ key r : List Char} {v : JsonValue}
      {ms : List (List UInt8 × JsonValue)} (hw : Space w) (hk : Chars k key)
      (hw₁ : Space w₁) (hw₂ : Space w₂) (hv : Text Number d s v) (hw₃ : Space w₃)
      (h : Members Number d r ms) :
      Members Number d (w ++ quote :: (k ++ quote :: (w₁ ++ ':' :: (w₂ ++ s ++ w₃ ++ ',' :: r))))
        ((encode key, v) :: ms)

end

/-- The bytes are UTF-8 and a text of the value, with space around it. -/
def Denotes (Number : Numeral → Prop) (text : List UInt8) (v : JsonValue) : Prop :=
  ∃ w s w', Space w ∧ Text Number kMaximumDepth s v ∧ Space w' ∧ text = encode (w ++ s ++ w')

end Dmn.Json
