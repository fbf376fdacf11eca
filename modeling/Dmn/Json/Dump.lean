import Dmn.Json.Accepts

/-!
# dump

`dump` writes JSON: it escapes what the grammar does not allow in a string, and puts U+FFFD in
place of each byte that does not start a UTF-8 sequence. `parse` therefore reads the value back.
-/

namespace Dmn.Json

-- ---------------------------------------------------------------------------
-- Strings
-- ---------------------------------------------------------------------------

def kReplacement : List UInt8 := [0xef, 0xbf, 0xbd]

/-- A digit of `%x`. -/
def hexLower (n : ℕ) : Char := if n < 10 then Char.ofNat (48 + n) else Char.ofNat (87 + n)

/-- `%04x`, of less than 16 bits. -/
def formatHex4 (n : ℕ) : List Char :=
  [hexLower (n / 4096 % 16), hexLower (n / 256 % 16), hexLower (n / 16 % 16), hexLower (n % 16)]

/-- The loop of `dumpString`. -/
def dumpChars (text : List UInt8) : List UInt8 :=
  match text with
  | [] => []
  | byte :: rest =>
    if byte = ascii quote ∨ byte = ascii backslash then [ascii backslash, byte] ++ dumpChars rest
    else if byte = ascii '\n' then [ascii backslash, ascii 'n'] ++ dumpChars rest
    else if byte = ascii '\r' then [ascii backslash, ascii 'r'] ++ dumpChars rest
    else if byte = ascii '\t' then [ascii backslash, ascii 't'] ++ dumpChars rest
    else if byte < 0x20 ∨ byte = 0x7f then
      [ascii backslash, ascii 'u'] ++ (formatHex4 byte.toNat).map ascii ++ dumpChars rest
    else if utf8SequenceLength (byte :: rest) = 0 then kReplacement ++ dumpChars rest
    else
      (byte :: rest).take (utf8SequenceLength (byte :: rest)) ++
        dumpChars ((byte :: rest).drop (utf8SequenceLength (byte :: rest)))
termination_by text.length
decreasing_by
  all_goals simp only [List.length_cons, List.length_drop]
  all_goals omega

def dumpString (text : List UInt8) : List UInt8 := ascii quote :: (dumpChars text ++ [ascii quote])

-- ---------------------------------------------------------------------------
-- Numbers
-- ---------------------------------------------------------------------------

def decimal (n : ℕ) : List (Fin 10) :=
  if h : n < 10 then [⟨n, h⟩] else decimal (n / 10) ++ [⟨n % 10, Nat.mod_lt n (by decide)⟩]

/-- `%lld`. -/
def integer (z : ℤ) : Numeral := ⟨if z < 0 then some .minus else none, decimal z.natAbs, none, none⟩

/-- A fraction without the zeros at its end, which `%g` leaves out. -/
def trimmed (digits : List (Fin 10)) : Option (List (Fin 10)) :=
  match (digits.reverse.dropWhile (· = 0)).reverse with
  | [] => none
  | digits => some digits

/-- `%.17g` of a number other than 0. -/
def format17g (q : ℚ) : Numeral :=
  let sign := if q < 0 then some Sign.minus else none
  let exponent := Int.log 10 |q|
  let rounded := (roundHalfEven (|q| * 10 ^ (16 - exponent))).toNat
  let (significant, exponent) := if rounded = 10 ^ 17 then (10 ^ 16, exponent + 1) else (rounded, exponent)
  let digits := decimal significant
  if exponent < -4 ∨ exponent ≥ 17 then
    let size := decimal exponent.natAbs
    ⟨sign, digits.take 1, trimmed (digits.drop 1),
      some ⟨false, some (if exponent < 0 then .minus else .plus), if size.length < 2 then 0 :: size else size⟩⟩
  else if exponent < 0 then ⟨sign, [0], trimmed (List.replicate (exponent.natAbs - 1) 0 ++ digits), none⟩
  else ⟨sign, digits.take (exponent.toNat + 1), trimmed (digits.drop (exponent.toNat + 1)), none⟩

def dumpNumber : Double → List UInt8
  | none => encode ['n', 'u', 'l', 'l']
  | some q => encode (if q = ⌊q⌋ ∧ |q| < 9 * 10 ^ 15 then integer ⌊q⌋ else format17g q).text

-- ---------------------------------------------------------------------------
-- Values
-- ---------------------------------------------------------------------------

theorem sizeOf_item {items : List JsonValue} {item : JsonValue} (h : item ∈ items) :
    sizeOf item < sizeOf (JsonValue.array items) := by
  have hlt := List.sizeOf_lt_of_mem h
  rw [JsonValue.array.sizeOf_spec]
  omega

theorem sizeOf_member {members : List (List UInt8 × JsonValue)} {member : List UInt8 × JsonValue}
    (h : member ∈ members) :
    sizeOf member.2 < sizeOf (JsonValue.object members) := by
  have hlt := List.sizeOf_lt_of_mem h
  obtain ⟨key, value⟩ := member
  rw [Prod.mk.sizeOf_spec] at hlt
  rw [JsonValue.object.sizeOf_spec]
  show sizeOf value < _
  omega

def dump : JsonValue → List UInt8
  | .null => encode ['n', 'u', 'l', 'l']
  | .bool flag => encode (if flag then ['t', 'r', 'u', 'e'] else ['f', 'a', 'l', 's', 'e'])
  | .number value => dumpNumber value
  | .string text => dumpString text
  | .array items => ascii '[' :: ((items.map dump).intersperse [ascii ',']).flatten ++ [ascii ']']
  | .object members =>
    ascii '{' ::
      ((members.map fun member => dumpString member.1 ++ ascii ':' :: dump member.2).intersperse
        [ascii ',']).flatten ++
      [ascii '}']
decreasing_by
  · exact sizeOf_item ‹_›
  · exact sizeOf_member ‹_›

/-- A string whose bytes that do not start a UTF-8 sequence are U+FFFD. -/
def repaired (text : List UInt8) : List UInt8 :=
  match text with
  | [] => []
  | byte :: rest =>
    if utf8SequenceLength (byte :: rest) = 0 then kReplacement ++ repaired rest
    else
      (byte :: rest).take (utf8SequenceLength (byte :: rest)) ++
        repaired ((byte :: rest).drop (utf8SequenceLength (byte :: rest)))
termination_by text.length
decreasing_by
  all_goals simp only [List.length_cons, List.length_drop]
  all_goals omega

def repair : JsonValue → JsonValue
  | .null => .null
  | .bool flag => .bool flag
  | .number value => .number value
  | .string text => .string (repaired text)
  | .array items => .array (items.map repair)
  | .object members => .object (members.map fun member => (member.1, repair member.2))
decreasing_by
  · exact sizeOf_item ‹_›
  · exact sizeOf_member ‹_›

-- ---------------------------------------------------------------------------
-- What is written for a string
-- ---------------------------------------------------------------------------

/-- No character of a text is a control. -/
def Printable (s : List Char) : Prop := ∀ c ∈ s, 0x20 ≤ c.toNat

theorem Printable.append {s t : List Char} (hs : Printable s) (ht : Printable t) : Printable (s ++ t) :=
    fun c hc =>
  (List.mem_append.mp hc).elim (hs c) (ht c)

theorem Printable.cons {c : Char} {s : List Char} (hc : 0x20 ≤ c.toNat) (hs : Printable s) :
    Printable (c :: s) := fun d hd =>
  (List.mem_cons.mp hd).elim (fun heq => heq ▸ hc) (hs d)

theorem Printable.nil : Printable [] := nofun

theorem Printable.of_all {s : List Char} (h : s.all (fun c => decide (0x20 ≤ c.toNat)) = true) :
    Printable s := fun c hc =>
  of_decide_eq_true (List.all_eq_true.mp h c hc)

theorem Printable.encode {s : List Char} (h : Printable s) : ∀ byte ∈ encode s, ¬ byte < 0x20 := by
  intro byte hbyte
  obtain ⟨c, hc, hin⟩ := List.mem_flatMap.mp hbyte
  have hsmall := h c hc
  have heq : c.val.toNat = c.toNat := rfl
  have hlarge {n : ℕ} (hn : 0x20 ≤ n % 256) : ¬ UInt8.ofNat n < 0x20 := by
    rw [UInt8.lt_iff_toNat_lt, UInt8.toNat_ofNat']
    exact Nat.not_lt_of_le hn
  unfold String.utf8EncodeChar at hin
  simp only [heq] at hin
  split at hin
  · obtain rfl := List.mem_singleton.mp hin
    exact hlarge (by omega)
  · split at hin
    · simp only [List.mem_cons, List.not_mem_nil, or_false] at hin
      obtain rfl | rfl := hin <;> exact hlarge (by omega)
    · split at hin
      · simp only [List.mem_cons, List.not_mem_nil, or_false] at hin
        obtain rfl | rfl | rfl := hin <;> exact hlarge (by omega)
      · simp only [List.mem_cons, List.not_mem_nil, or_false] at hin
        obtain rfl | rfl | rfl | rfl := hin <;> exact hlarge (by omega)

theorem hexValue_hexLower {n : ℕ} (h : n < 16) : hexValue (hexLower n) = some n := by
  have all : ∀ n : Fin 16, hexValue (hexLower n) = some n.val := by decide
  exact all ⟨n, h⟩

theorem hex4_format {n : ℕ} (h : n < 0x10000) : Hex4 (formatHex4 n) n := by
  have hdigits : Hex4 (formatHex4 n) (((n / 4096 % 16 * 16 + n / 256 % 16) * 16 + n / 16 % 16) * 16 + n % 16) :=
    .digits (hexValue_hexLower (Nat.mod_lt _ (by decide))) (hexValue_hexLower (Nat.mod_lt _ (by decide)))
      (hexValue_hexLower (Nat.mod_lt _ (by decide))) (hexValue_hexLower (Nat.mod_lt _ (by decide)))
  rwa [show ((n / 4096 % 16 * 16 + n / 256 % 16) * 16 + n / 16 % 16) * 16 + n % 16 = n by omega] at hdigits

theorem formatHex4_printable (n : ℕ) : ∀ c ∈ formatHex4 n, 0x20 ≤ c.toNat ∧ c.toNat < 128 := by
  have all : ∀ n : Fin 16, 0x20 ≤ (hexLower n).toNat ∧ (hexLower n).toNat < 128 := by decide
  intro c hc
  simp only [formatHex4, List.mem_cons, List.not_mem_nil, or_false] at hc
  obtain rfl | rfl | rfl | rfl := hc
  · exact all ⟨n / 4096 % 16, Nat.mod_lt _ (by decide)⟩
  · exact all ⟨n / 256 % 16, Nat.mod_lt _ (by decide)⟩
  · exact all ⟨n / 16 % 16, Nat.mod_lt _ (by decide)⟩
  · exact all ⟨n % 16, Nat.mod_lt _ (by decide)⟩

/-- A byte that is a character is kept. -/
theorem repaired_ascii {byte : UInt8} (h : byte < 0x80) (rest : List UInt8) :
    repaired (byte :: rest) = byte :: repaired rest := by
  have hlength : utf8SequenceLength (byte :: rest) = 1 := if_pos h
  rw [repaired.eq_def]
  dsimp only
  rw [hlength, if_neg (by decide)]
  rfl

/-- Text that is a string's, and what it denotes. -/
def Writes (text written : List UInt8) : Prop :=
  ∃ s cs, Chars s cs ∧ written = encode s ∧ repaired text = encode cs ∧ Printable s

theorem Writes.escape {byte : UInt8} {e c : Char} {rest written : List UInt8} (h : Writes rest written)
    (he : escaped e = some c) (hprintable : 0x20 ≤ e.toNat) (hc : byte = ascii c) :
    Writes (byte :: rest) ([ascii backslash, ascii e] ++ written) := by
  obtain ⟨s, cs, hs, rfl, hrest, hprint⟩ := h
  obtain ⟨heascii, hcascii⟩ := escaped_some he
  have hbyte : byte < 0x80 := by
    rw [hc, UInt8.lt_iff_toNat_lt, toNat_ascii hcascii]
    exact hcascii
  refine ⟨backslash :: e :: s, c :: cs, .escape he hs, ?_, ?_, .cons (by decide) (.cons hprintable hprint)⟩
  · rw [encode_ascii (by decide), encode_ascii heascii]
    rfl
  · rw [repaired_ascii hbyte, hrest, encode_ascii hcascii, hc]

theorem Writes.unicode {byte : UInt8} {rest written : List UInt8} (h : Writes rest written)
    (hbyte : byte < 0x80) :
    Writes (byte :: rest) ([ascii backslash, ascii 'u'] ++ (formatHex4 byte.toNat).map ascii ++ written) := by
  obtain ⟨s, cs, hs, rfl, hrest, hprint⟩ := h
  have hsmall : byte.toNat < 128 := UInt8.lt_iff_toNat_lt.mp hbyte
  have hhex : Hex4 (formatHex4 byte.toNat) (charOf byte).toNat := by
    rw [toNat_charOf hsmall]
    exact hex4_format (by omega)
  have hdigits := formatHex4_printable byte.toNat
  refine ⟨backslash :: 'u' :: (formatHex4 byte.toNat ++ s), charOf byte :: cs, .unicode hhex hs, ?_, ?_, ?_⟩
  · rw [encode_ascii (by decide), encode_ascii (by decide), encode_append, encode_map fun c hc =>
      (hdigits c hc).2]
    rfl
  · rw [repaired_ascii hbyte, hrest, encode_charOf hsmall]
  · exact .cons (by decide) (.cons (by decide) (.append (fun c hc => (hdigits c hc).1) hprint))

theorem dumpChars_writes (text : List UInt8) : Writes text (dumpChars text) := by
  fun_induction dumpChars text with
  | case1 => exact ⟨[], [], .nil, rfl, by rw [repaired]; rfl, .nil⟩
  | case2 byte rest hself ih =>
    obtain rfl | rfl := hself
    · exact ih.escape (c := quote) rfl (by decide) rfl
    · exact ih.escape (c := backslash) rfl (by decide) rfl
  | case3 rest hself ih => exact ih.escape (c := '\n') rfl (by decide) rfl
  | case4 rest hself hnewline ih => exact ih.escape (c := '\r') rfl (by decide) rfl
  | case5 rest hself hnewline hreturn ih => exact ih.escape (c := '\t') rfl (by decide) rfl
  | case6 byte rest hself hnewline hreturn htab hcontrol ih =>
    refine ih.unicode ?_
    obtain hlow | rfl := hcontrol
    · exact UInt8.lt_trans hlow (by decide)
    · decide
  | case7 byte rest hself hnewline hreturn htab hcontrol hlength ih =>
    obtain ⟨s, cs, hs, hwritten, hrest, hprint⟩ := ih
    have hfffd : ('\ufffd'.toNat) = 0xfffd := rfl
    have hreplacement : String.utf8EncodeChar '\ufffd' = kReplacement := by decide
    refine ⟨'\ufffd' :: s, '\ufffd' :: cs, .plain (by decide) (by decide) (by decide) hs, ?_, ?_,
      .cons (by decide) hprint⟩
    · rw [encode_cons, hreplacement, hwritten]
    · rw [repaired.eq_def]
      dsimp only
      rw [if_pos hlength, hrest, encode_cons, hreplacement]
  | case8 byte rest hself hnewline hreturn htab hcontrol hlength ih =>
    obtain ⟨s, cs, hs, hwritten, hrest, hprint⟩ := ih
    obtain ⟨c, hc⟩ := utf8SequenceLength_some hlength
    obtain ⟨hquote, hbackslash⟩ := not_or.mp hself
    obtain ⟨hcquote, hcbackslash, hccontrol⟩ := plain_of_byte hlength hc hquote hbackslash fun hlow =>
      hcontrol (.inl hlow)
    refine ⟨c :: s, c :: cs, .plain hcquote hcbackslash hccontrol hs, ?_, ?_, .cons hccontrol hprint⟩
    · rw [encode_cons, hc, hwritten]
    · rw [repaired.eq_def]
      dsimp only
      rw [if_neg hlength, hc, hrest, encode_cons]

theorem repaired_valid {text : List UInt8} (h : Ancs.WellFormedUtf8 text) : repaired text = text := by
  obtain ⟨cs, rfl⟩ := h
  induction cs with
  | nil => rw [repaired.eq_def]; rfl
  | cons c cs ih =>
    have hlength := utf8SequenceLength_encode c (encode cs)
    have htake : (String.utf8EncodeChar c ++ encode cs).take (String.utf8EncodeChar c).length =
      String.utf8EncodeChar c := List.take_left
    have hdrop : (String.utf8EncodeChar c ++ encode cs).drop (String.utf8EncodeChar c).length =
      encode cs := List.drop_left
    rw [List.flatMap_cons]
    show repaired (String.utf8EncodeChar c ++ encode cs) = String.utf8EncodeChar c ++ encode cs
    cases hc : String.utf8EncodeChar c with
    | nil =>
      exact absurd (String.length_utf8EncodeChar c ▸ congrArg List.length hc)
        (Nat.ne_of_gt (Char.utf8Size_pos c))
    | cons byte tail =>
      rw [hc, List.cons_append] at hlength htake hdrop
      rw [List.cons_append, repaired.eq_def]
      dsimp only
      rw [hlength, if_neg (show (byte :: tail).length ≠ 0 from nofun), htake, hdrop]
      exact congrArg _ ih

-- ---------------------------------------------------------------------------
-- What is written for an integer
-- ---------------------------------------------------------------------------

theorem decimal_lt {n : ℕ} (h : n < 10) : decimal n = [⟨n, h⟩] := by
  rw [decimal]
  exact dif_pos h

theorem decimal_ge {n : ℕ} (h : ¬ n < 10) : decimal n = decimal (n / 10) ++
    [⟨n % 10, Nat.mod_lt n (by decide)⟩] := by
  rw [decimal]
  exact dif_neg h

theorem ofDigits_decimal (n : ℕ) : Numeral.ofDigits (decimal n) = n := by
  induction n using Nat.strong_induction_on with
  | _ n ih =>
    by_cases h : n < 10
    · rw [decimal_lt h]
      exact Nat.zero_add n
    · have hdiv := ih (n / 10) (by omega)
      unfold Numeral.ofDigits at hdiv ⊢
      rw [decimal_ge h, List.foldl_append, hdiv]
      show n / 10 * 10 + n % 10 = n
      omega

theorem decimal_ne_nil (n : ℕ) : decimal n ≠ [] := by
  by_cases h : n < 10
  · rw [decimal_lt h]
    exact List.cons_ne_nil _ _
  · rw [decimal_ge h]
    exact List.append_ne_nil_of_right_ne_nil _ (List.cons_ne_nil _ _)

theorem decimal_head (n : ℕ) : (decimal n).head? = some 0 → decimal n = [0] := by
  induction n using Nat.strong_induction_on with
  | _ n ih =>
    by_cases h : n < 10
    · rw [decimal_lt h]
      intro hzero
      rw [Option.some.inj hzero]
    · intro hzero
      rw [decimal_ge h, List.head?_append_of_ne_nil _ (decimal_ne_nil _)] at hzero
      have hlow := ih (n / 10) (by omega) hzero
      have hsame := ofDigits_decimal (n / 10)
      rw [hlow] at hsame
      have hnone : n / 10 = 0 := hsame.symm
      omega

theorem integer_plain (z : ℤ) : (integer z).Plain where
  sign := by
    show (if z < 0 then some Sign.minus else none) ≠ some .plus
    split <;> decide
  whole := decimal_ne_nil _
  zero := decimal_head _
  fraction := nofun
  exponent := nofun

theorem integer_value (z : ℤ) : (integer z).value = z := by
  have hmantissa : Numeral.ofDigits (integer z).mantissa = z.natAbs := by
    show Numeral.ofDigits (decimal z.natAbs ++ []) = _
    rw [List.append_nil, ofDigits_decimal]
  unfold Numeral.value
  rw [hmantissa]
  show (Numeral.signed (if z < 0 then some .minus else none) z.natAbs : ℚ) * 10 ^ (0 - 0 : ℤ) = z
  rw [sub_zero, zpow_zero, mul_one]
  refine congrArg _ ?_
  unfold Numeral.signed
  by_cases hz : z < 0
  · rw [if_pos hz, if_pos rfl]
    omega
  · rw [if_neg hz, if_neg nofun]
    omega

theorem roundHalfEven_int (z : ℤ) : roundHalfEven z = z := by
  unfold roundHalfEven
  rw [Int.floor_intCast]
  exact if_pos (by rw [sub_self]; norm_num)

/-- An integer of 53 bits is a `double`. -/
theorem toDouble_int {z : ℤ} (h : |z| < 9 * 10 ^ 15) : toDouble z = some (z : ℚ) := by
  have hsize : |(z : ℚ)| < 2 ^ 53 := by
    have hcast : ((|z| : ℤ) : ℚ) < ((9 * 10 ^ 15 : ℤ) : ℚ) := Int.cast_lt.mpr h
    rw [Int.cast_abs] at hcast
    exact hcast.trans (by norm_num)
  have hlog : Int.log 2 |(z : ℚ)| < 53 := by
    by_cases hz : z = 0
    · rw [hz, Int.cast_zero, abs_zero, Int.log_zero_right]
      decide
    · have hpos : 0 < |(z : ℚ)| := abs_pos.mpr (Int.cast_ne_zero.mpr hz)
      refine (Int.lt_zpow_iff_log_lt (by decide) hpos).mp ?_
      exact_mod_cast hsize
  obtain ⟨k, hk⟩ : ∃ k : ℕ, max (Int.log 2 |(z : ℚ)| - 52) (-1074) = -(k : ℤ) :=
    ⟨(-max (Int.log 2 |(z : ℚ)| - 52) (-1074)).toNat, by omega⟩
  have hunit : (2 : ℚ) ^ k ≠ 0 := pow_ne_zero _ (by decide)
  unfold toDouble
  dsimp only
  rw [hk, zpow_neg, zpow_natCast, div_inv_eq_mul, show (z : ℚ) * 2 ^ k = ((z * 2 ^ k : ℤ) : ℚ) by
    push_cast; rfl,
    roundHalfEven_int]
  have hrounded : ((z * 2 ^ k : ℤ) : ℚ) * ((2 : ℚ) ^ k)⁻¹ = z := by
    push_cast
    rw [mul_assoc, mul_inv_cancel₀ hunit, mul_one]
  rw [hrounded]
  exact if_pos (hsize.trans (pow_lt_pow_right₀ (by norm_num) (by decide)))

-- ---------------------------------------------------------------------------
-- What is written for a value
-- ---------------------------------------------------------------------------

/-- The values that `dump` keeps: the keys of an object are UTF-8 and distinct, the numbers integers
that it writes as such, and no value is more than `d` levels below. -/
inductive Kept : ℕ → JsonValue → Prop
  | null {d : ℕ} : Kept d .null
  | bool {d : ℕ} (flag : Bool) : Kept d (.bool flag)
  | number {d : ℕ} {z : ℤ} (h : |z| < 9 * 10 ^ 15) : Kept d (.number (some z))
  | string {d : ℕ} (text : List UInt8) : Kept d (.string text)
  | emptyArray {d : ℕ} : Kept d (.array [])
  | array {d : ℕ} {items : List JsonValue} (h : ∀ item ∈ items, Kept d item) : Kept (d + 1) (.array items)
  | emptyObject {d : ℕ} : Kept d (.object [])
  | object {d : ℕ} {members : List (List UInt8 × JsonValue)} (hkeys : (members.map Prod.fst).Nodup)
      (hvalid : ∀ member ∈ members, Ancs.WellFormedUtf8 member.1) (h : ∀ member ∈ members, Kept d member.2) :
      Kept (d + 1) (.object members)

theorem set_fresh {object : List (List UInt8 × JsonValue)} {key : List UInt8} (h : key ∉ object.map Prod.fst)
    (value : JsonValue) : set object key value = object ++ [(key, value)] := by
  induction object with
  | nil => rfl
  | cons member object ih =>
    rw [List.map_cons, List.mem_cons, not_or] at h
    rw [set, if_neg (Ne.symm h.1), ih h.2]
    rfl

theorem merged_distinct {ms : List (List UInt8 × JsonValue)} (h : (ms.map Prod.fst).Nodup) :
    merged ms = ms := by
  induction ms using List.reverseRecOn with
  | nil => rfl
  | append_singleton ms member ih =>
    rw [List.map_append, List.nodup_append] at h
    obtain ⟨hms, -, hfresh⟩ := h
    have hkey : member.1 ∉ ms.map Prod.fst := fun hin => hfresh _ hin _ List.mem_cons_self rfl
    rw [show ms ++ [member] = ms ++ [(member.1, member.2)] from rfl, merged_concat, ih hms, set_fresh hkey]

/-- What is written is a text of the value. -/
def Dumped (d : ℕ) (v : JsonValue) : Prop := ∃ s, Text Numeral.Plain d s (repair v) ∧ dump v =
    encode s ∧ Printable s

theorem integer_printable (z : ℤ) : Printable (integer z).text := by
  have hdigits (digits : List (Fin 10)) : Printable (digits.map digitChar) := by
    intro c hc
    obtain ⟨d, -, rfl⟩ := List.mem_map.mp hc
    rw [toNat_digitChar]
    omega
  have hsign : Printable (Sign.text (if z < 0 then some .minus else none)) := by
    split
    · exact .cons (by decide) .nil
    · exact .nil
  exact .append (.append (.append hsign (hdigits _)) .nil) .nil

theorem dumpNumber_int {z : ℤ} (h : |z| < 9 * 10 ^ 15) : dumpNumber (some z) = encode (integer z).text := by
  have hcast : |(z : ℚ)| < 9 * 10 ^ 15 := by
    rw [← Int.cast_abs]
    exact_mod_cast h
  unfold dumpNumber
  dsimp only
  rw [Int.floor_intCast, if_pos ⟨rfl, hcast⟩]

theorem dumpString_encode {s : List Char} {text : List UInt8} (h : dumpChars text = encode s) :
    dumpString text = encode (quote :: (s ++ [quote])) := by
  unfold dumpString
  rw [encode_ascii (by decide), encode_append, h]
  rfl

theorem Printable.quoted {s : List Char} (h : Printable s) : Printable (quote :: (s ++ [quote])) :=
  .cons (by decide) (.append h (.cons (by decide) .nil))

theorem dumpItems {d : ℕ} {items : List JsonValue} (hne : items ≠ []) (h : ∀ item ∈ items, Dumped d item) :
    ∃ s, Items Numeral.Plain d s (items.map repair) ∧
      ((items.map dump).intersperse [ascii ',']).flatten = encode s ∧ Printable s := by
  induction items with
  | nil => exact absurd rfl hne
  | cons item items ih =>
    obtain ⟨s, hs, hdump, hprint⟩ := h item List.mem_cons_self
    cases items with
    | nil =>
      have hlast : Items Numeral.Plain d ([] ++ s ++ []) [repair item] := .last nofun hs nofun
      rw [List.nil_append, List.append_nil] at hlast
      refine ⟨s, hlast, ?_, hprint⟩
      show dump item ++ [] = _
      rw [List.append_nil, hdump]
    | cons next items =>
      obtain ⟨r, hr, hrest, hprints⟩ := ih (List.cons_ne_nil _ _) fun other hother =>
        h other (List.mem_cons_of_mem _ hother)
      have hmore : Items Numeral.Plain d ([] ++ s ++ [] ++ ',' :: r) (repair item ::
        (next :: items).map repair) :=
        .more nofun hs nofun hr
      rw [List.nil_append, List.append_nil] at hmore
      refine ⟨s ++ ',' :: r, hmore, ?_, hprint.append (.cons (by decide) hprints)⟩
      rw [encode_append, encode_ascii (by decide), ← hrest, ← hdump]
      rfl

theorem dumpMembers {d : ℕ} {members : List (List UInt8 × JsonValue)} (hne : members ≠ [])
    (hvalid : ∀ member ∈ members, Ancs.WellFormedUtf8 member.1) (h : ∀ member ∈ members, Dumped d member.2) :
    ∃ s, Members Numeral.Plain d s (members.map fun member => (member.1, repair member.2)) ∧
      ((members.map fun member => dumpString member.1 ++ ascii ':' :: dump member.2).intersperse
        [ascii ',']).flatten =
        encode s ∧ Printable s := by
  induction members with
  | nil => exact absurd rfl hne
  | cons member members ih =>
    obtain ⟨key, value⟩ := member
    obtain ⟨s, hs, hdump, hprint⟩ := h (key, value) List.mem_cons_self
    obtain ⟨k, cs, hk, hkey, hrepaired, hprintk⟩ := dumpChars_writes key
    rw [repaired_valid (hvalid (key, value) List.mem_cons_self)] at hrepaired
    have hprinted : Printable (quote :: (k ++ quote :: ':' :: s)) :=
      .cons (by decide) (hprintk.append (.cons (by decide) (.cons (by decide) hprint)))
    have hwritten : dumpString key ++ ascii ':' :: dump value = encode (quote :: (k ++ quote :: ':' :: s)) := by
      rw [dumpString_encode hkey, hdump]
      simp only [encode_append, encode_ascii (show quote.toNat < 128 by decide),
        encode_ascii (show ':'.toNat < 128 by decide),
        encode_nil, List.append_assoc, List.cons_append, List.nil_append]
    cases members with
    | nil =>
      have hlast : Members Numeral.Plain d ([] ++ quote :: (k ++ quote :: ([] ++ ':' :: ([] ++ s ++ []))))
          [(encode cs, repair value)] := .last nofun hk nofun nofun hs nofun
      rw [← hrepaired] at hlast
      simp only [List.nil_append, List.append_nil] at hlast
      refine ⟨_, hlast, ?_, hprinted⟩
      show dumpString key ++ ascii ':' :: dump value ++ [] = _
      rw [List.append_nil, hwritten]
    | cons next members =>
      obtain ⟨r, hr, hrest, hprints⟩ := ih (List.cons_ne_nil _ _)
        (fun other hother => hvalid other (List.mem_cons_of_mem _ hother))
        fun other hother => h other (List.mem_cons_of_mem _ hother)
      have hmore : Members Numeral.Plain d ([] ++ quote :: (k ++ quote :: ([] ++ ':' :: ([] ++ s ++
        [] ++ ',' :: r))))
          ((encode cs, repair value) :: (next :: members).map fun member => (member.1, repair member.2)) :=
        .more nofun hk nofun nofun hs nofun hr
      rw [← hrepaired] at hmore
      simp only [List.nil_append, List.append_nil] at hmore
      refine ⟨_, hmore, ?_, ?_⟩
      · rw [show quote :: (k ++ quote :: ':' :: (s ++ ',' :: r)) = quote :: (k ++ quote :: ':' :: s) ++
          ',' :: r by
          rw [List.cons_append, List.append_assoc]; rfl, encode_append,
          show encode (',' :: r) = ascii ',' :: encode r from encode_ascii (by decide) r, ← hwritten, ← hrest]
        rfl
      · rw [show quote :: (k ++ quote :: ':' :: (s ++ ',' :: r)) = quote :: (k ++ quote :: ':' :: s) ++
          ',' :: r by
          rw [List.cons_append, List.append_assoc]; rfl]
        exact hprinted.append (.cons (by decide) hprints)

theorem dumped_emptyArray (d : ℕ) : Dumped d (.array []) := by
  refine ⟨['[', ']'], ?_, ?_, .of_all rfl⟩
  · rw [repair]
    exact .emptyArray (show Space [] from nofun)
  · rw [dump]
    rfl

theorem dumped_emptyObject (d : ℕ) : Dumped d (.object []) := by
  refine ⟨['{', '}'], ?_, ?_, .of_all rfl⟩
  · rw [repair]
    exact .emptyObject (show Space [] from nofun)
  · rw [dump]
    rfl

theorem Kept.dumped {d : ℕ} {v : JsonValue} (h : Kept d v) : Dumped d v := by
  induction h with
  | null => exact ⟨_, by rw [repair]; exact .nullText, by rw [dump], .of_all rfl⟩
  | bool flag =>
    cases flag with
    | true => exact ⟨_, by rw [repair]; exact .trueText, by rw [dump]; rfl, .of_all rfl⟩
    | false => exact ⟨_, by rw [repair]; exact .falseText, by rw [dump]; rfl, .of_all rfl⟩
  | @number d z hz =>
    refine ⟨(integer z).text, ?_, ?_, integer_printable z⟩
    · rw [repair]
      exact .number (integer_plain z) (by rw [integer_value, toDouble_int hz])
    · rw [dump, dumpNumber_int hz]
  | string text =>
    obtain ⟨s, cs, hs, hwritten, hrepaired, hprint⟩ := dumpChars_writes text
    refine ⟨_, ?_, by rw [dump, dumpString_encode hwritten], hprint.quoted⟩
    rw [repair, hrepaired]
    exact .string hs
  | emptyArray => exact dumped_emptyArray _
  | @array d items hitems ih =>
    cases items with
    | nil => exact dumped_emptyArray _
    | cons item items =>
      obtain ⟨s, hs, hdump, hprint⟩ := dumpItems (List.cons_ne_nil item items) ih
      refine ⟨'[' :: (s ++ [']']), by rw [repair]; exact .array hs, ?_,
        .cons (by decide) (hprint.append (.cons (by decide) .nil))⟩
      rw [dump, hdump, encode_ascii (by decide), encode_append]
      rfl
  | emptyObject => exact dumped_emptyObject _
  | @object d members hkeys hvalid hmembers ih =>
    cases members with
    | nil => exact dumped_emptyObject _
    | cons member members =>
      obtain ⟨s, hs, hdump, hprint⟩ := dumpMembers (List.cons_ne_nil member members) hvalid ih
      have hsame : merged ((member :: members).map fun member => (member.1, repair member.2)) =
          (member :: members).map fun member => (member.1, repair member.2) := by
        refine merged_distinct ?_
        rw [List.map_map]
        exact hkeys
      refine ⟨'{' :: (s ++ ['}']), ?_, ?_, .cons (by decide) (hprint.append (.cons (by decide) .nil))⟩
      · rw [repair, ← hsame]
        exact .object hs
      · rw [dump, hdump, encode_ascii (by decide), encode_append]
        rfl

-- ---------------------------------------------------------------------------
-- Values whose strings are UTF-8
-- ---------------------------------------------------------------------------

inductive Valid : JsonValue → Prop
  | null : Valid .null
  | bool (flag : Bool) : Valid (.bool flag)
  | number (value : Double) : Valid (.number value)
  | string {text : List UInt8} (h : Ancs.WellFormedUtf8 text) : Valid (.string text)
  | array {items : List JsonValue} (h : ∀ item ∈ items, Valid item) : Valid (.array items)
  | object {members : List (List UInt8 × JsonValue)} (h : ∀ member ∈ members, Valid member.2) :
      Valid (.object members)

theorem Valid.repair {v : JsonValue} (h : Valid v) : repair v = v := by
  induction h with
  | null | bool flag | number value => rw [Json.repair]
  | string h => rw [Json.repair, repaired_valid h]
  | array h ih =>
    rw [Json.repair, List.map_congr_left ih, List.map_id']
  | object h ih =>
    rw [Json.repair, List.map_congr_left fun member hmember => by rw [ih member hmember], List.map_id']

theorem mem_merged {ms : List (List UInt8 × JsonValue)} {member : List UInt8 × JsonValue}
    (h : member ∈ merged ms) :
    member ∈ ms := by
  induction ms using List.reverseRecOn with
  | nil => cases h
  | append_singleton ms last ih =>
    rw [show ms ++ [last] = ms ++ [(last.1, last.2)] from rfl, merged_concat] at h
    have hset {object : List (List UInt8 × JsonValue)} (hin : member ∈ set object last.1 last.2) :
      member ∈ object ∨ member = last := by
      induction object with
      | nil => exact .inr (List.mem_singleton.mp hin)
      | cons first object ih =>
        rw [set] at hin
        split at hin
        · rename_i hkey
          obtain rfl | hin := List.mem_cons.mp hin
          · exact .inr (Prod.ext hkey rfl)
          · exact .inl (List.mem_cons_of_mem _ hin)
        · obtain rfl | hin := List.mem_cons.mp hin
          · exact .inl List.mem_cons_self
          · exact (ih hin).imp_left (List.mem_cons_of_mem _)
    obtain hold | rfl := hset h
    · exact List.mem_append_left _ (ih hold)
    · exact List.mem_append_right _ List.mem_cons_self

mutual

theorem Text.valid {P : Numeral → Prop} {d : ℕ} {s : List Char} {v : JsonValue} (h : Text P d s v) : Valid v :=
  match h with
  | .nullText => .null
  | .trueText => .bool true
  | .falseText => .bool false
  | .number _ _ => .number _
  | .string _ => .string ⟨_, rfl⟩
  | .emptyArray _ => .array nofun
  | .array hs => .array hs.valid
  | .emptyObject _ => .object nofun
  | .object hs => .object fun member hmember => hs.valid member (mem_merged hmember)

theorem Items.valid {P : Numeral → Prop} {d : ℕ} {s : List Char} {vs : List JsonValue} (h : Items P d s vs) :
    ∀ v ∈ vs, Valid v :=
  match h with
  | .last _ hv _ => fun _ hin => List.mem_singleton.mp hin ▸ hv.valid
  | .more _ hv _ h => fun v hin => (List.mem_cons.mp hin).elim (fun heq => heq ▸ hv.valid) (h.valid v)

theorem Members.valid {P : Numeral → Prop} {d : ℕ} {s : List Char} {ms : List (List UInt8 × JsonValue)}
    (h : Members P d s ms) :
    ∀ m ∈ ms, Valid m.2 :=
  match h with
  | .last _ _ _ _ hv _ => fun _ hin => List.mem_singleton.mp hin ▸ hv.valid
  | .more _ _ _ _ hv _ h => fun m hin => (List.mem_cons.mp hin).elim (fun heq => heq ▸ hv.valid) (h.valid m)

end

theorem Kept.parse_dump {v : JsonValue} (h : Kept kMaximumDepth v) : parse (dump v) = some (repair v) := by
  obtain ⟨s, hs, hdump, -⟩ := h.dumped
  refine (parse_iff _ _).mpr ⟨[], s, [], nofun, hs.mono fun _ => Numeral.Plain.decimal, nofun, ?_⟩
  rw [List.nil_append, List.append_nil, hdump]

/-- What is written is printable UTF-8, and is read as the value that it was written for. -/
theorem dump_inverse {v : JsonValue} (h : Kept kMaximumDepth v) :
    Ancs.WellFormedUtf8 (dump v) ∧ (∀ byte ∈ dump v, ¬ byte < 0x20) ∧ parse (dump v) = some (repair v) ∧
      (Valid v → parse (dump v) = some v) ∧ ∀ text, parse text = some v → parse (dump v) = some v := by
  obtain ⟨s, hs, hdump, hprint⟩ := h.dumped
  have hparse := h.parse_dump
  have hvalid (hv : Valid v) : parse (dump v) = some v := by rw [hparse, hv.repair]
  refine ⟨⟨s, hdump⟩, hdump ▸ hprint.encode, hparse, hvalid, fun text htext => hvalid ?_⟩
  obtain ⟨w, s', w', -, hs', -⟩ := (parse_iff text v).mp htext
  exact hs'.valid

/-- A string with a byte that is not UTF-8, and a number. -/
theorem dump_inverse_once : parse (dump (.array [.string [0xff], .number (some 7)])) =
    some (.array [.string kReplacement, .number (some 7)]) := by
  have hkept : Kept kMaximumDepth (.array [.string [0xff], .number (some ((7 : ℤ) : ℚ))]) := by
    refine .array fun item hitem => ?_
    simp only [List.mem_cons, List.not_mem_nil, or_false] at hitem
    obtain rfl | rfl := hitem
    · exact .string _
    · exact .number (by decide)
  have hinverse := (dump_inverse hkept).2.2.1
  have hbyte : repaired [0xff] = kReplacement := by
    rw [repaired.eq_def]
    dsimp only
    rw [if_pos (by decide), repaired.eq_def]
    rfl
  simp only [repair, List.map_cons, List.map_nil, hbyte] at hinverse
  exact_mod_cast hinverse

end Dmn.Json
