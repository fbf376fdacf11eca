import Dmn.Json.Grammar

/-!
# What the scanners accept

Each scanner of the parser against the part of the grammar that it reads: what it takes is a text
of the grammar, and such a text is taken whatever follows, as long as it does not go on.
-/

namespace Dmn.Json

-- ---------------------------------------------------------------------------
-- ASCII
-- ---------------------------------------------------------------------------

theorem encode_nil : encode [] = [] := rfl

theorem encode_append (s t : List Char) : encode (s ++ t) = encode s ++ encode t := List.flatMap_append

theorem encode_cons (c : Char) (s : List Char) : encode (c :: s) = String.utf8EncodeChar c ++ encode s :=
    List.flatMap_cons

theorem encode_ascii {c : Char} (h : c.toNat < 128) (s : List Char) : encode (c :: s) =
    ascii c :: encode s := by
  rw [encode_cons, Ancs.utf8EncodeChar_ascii (by omega)]
  rfl

theorem encode_map {s : List Char} (h : ∀ c ∈ s, c.toNat < 128) : encode s = s.map ascii := by
  induction s with
  | nil => rfl
  | cons c s ih =>
    rw [encode_ascii (h c List.mem_cons_self), ih fun d hd => h d (List.mem_cons_of_mem _ hd)]
    rfl

theorem toNat_ascii {c : Char} (h : c.toNat < 128) : (ascii c).toNat = c.toNat :=
    Ancs.toNat_ofNat_small (by omega)

theorem ascii_ne {c d : Char} (hc : c.toNat < 128) (hd : d.toNat < 128) (h : c ≠ d) : ascii c ≠ ascii d := by
  intro heq
  have htoNat : c.toNat = d.toNat := by rw [← toNat_ascii hc, heq, toNat_ascii hd]
  exact h (Char.toNat_inj.mp htoNat)

/-- The character that an ASCII byte is. -/
def charOf (byte : UInt8) : Char := Char.ofNat byte.toNat

theorem toNat_ofNat {n : ℕ} (h : n < 128) : (Char.ofNat n).toNat = n := by
  have hvalid : n.isValidChar := .inl (Nat.lt_trans h (by decide))
  unfold Char.ofNat
  rw [dif_pos hvalid]
  rfl

theorem toNat_charOf {byte : UInt8} (h : byte.toNat < 128) : (charOf byte).toNat = byte.toNat := toNat_ofNat h

theorem ascii_charOf {byte : UInt8} (h : byte.toNat < 128) : ascii (charOf byte) = byte := by
  unfold ascii
  rw [toNat_charOf h, UInt8.ofNat_toNat]

theorem charOf_ascii {c : Char} (h : c.toNat < 128) : charOf (ascii c) = c := by
  unfold charOf
  rw [toNat_ascii h, Char.ofNat_toNat]

theorem encode_charOf {byte : UInt8} (h : byte.toNat < 128) (s : List Char) :
    encode (charOf byte :: s) = byte :: encode s := by
  rw [encode_ascii (by rw [toNat_charOf h]; exact h), ascii_charOf h]

-- ---------------------------------------------------------------------------
-- Space
-- ---------------------------------------------------------------------------

theorem Space.tail {c : Char} {w : List Char} (h : Space (c :: w)) : Space w := fun d hd => h d
    (List.mem_cons_of_mem _ hd)

theorem Space.head {c : Char} {w : List Char} (h : Space (c :: w)) : c.toNat < 128 ∧ isSpace
    (ascii c) = true := by
  obtain rfl | rfl | rfl | rfl := h c List.mem_cons_self <;> decide

theorem skipSpace_cons {byte : UInt8} (h : isSpace byte = false) (m : List UInt8) :
    skipSpace (byte :: m) = byte :: m :=
  List.dropWhile_cons_of_neg (by rw [h]; exact Bool.false_ne_true)

theorem skipSpace_encode {w : List Char} (hw : Space w) (m : List UInt8) : skipSpace (encode w ++ m) =
    skipSpace m := by
  induction w with
  | nil => rfl
  | cons c w ih =>
    obtain ⟨hascii, hspace⟩ := hw.head
    rw [encode_ascii hascii]
    exact (List.dropWhile_cons_of_pos hspace).trans (ih hw.tail)

theorem space_charOf {byte : UInt8} (h : isSpace byte = true) :
    byte.toNat < 128 ∧ (charOf byte = ' ' ∨ charOf byte = '\t' ∨ charOf byte = '\n' ∨ charOf byte = '\r') := by
  simp only [isSpace, Bool.or_eq_true, decide_eq_true_eq] at h
  obtain ((rfl | rfl) | rfl) | rfl := h <;> decide

theorem skipSpace_split (m : List UInt8) : ∃ w, Space w ∧ m = encode w ++ skipSpace m := by
  induction m with
  | nil => exact ⟨[], nofun, rfl⟩
  | cons byte m ih =>
    cases hspace : isSpace byte with
    | true =>
      obtain ⟨hascii, hchar⟩ := space_charOf hspace
      obtain ⟨w, hw, hm⟩ := ih
      refine ⟨charOf byte :: w, fun c hc => ?_, ?_⟩
      · obtain rfl | hc := List.mem_cons.mp hc
        · exact hchar
        · exact hw c hc
      · rw [encode_charOf hascii, List.cons_append]
        have hskip : skipSpace (byte :: m) = skipSpace m := List.dropWhile_cons_of_pos hspace
        rw [hskip, ← hm]
    | false => exact ⟨[], nofun, (skipSpace_cons hspace m).symm⟩

theorem skipSpace_head {m rest : List UInt8} {byte : UInt8} (h : skipSpace m = byte :: rest) :
    isSpace byte = false := by
  induction m with
  | nil => cases h
  | cons first m ih =>
    cases hspace : isSpace first with
    | true => exact ih ((List.dropWhile_cons_of_pos hspace).symm.trans h)
    | false =>
      obtain ⟨rfl, -⟩ := List.cons.inj ((skipSpace_cons hspace m).symm.trans h)
      exact hspace

theorem skipSpace_idem (m : List UInt8) : skipSpace (skipSpace m) = skipSpace m := by
  cases h : skipSpace m with
  | nil => rfl
  | cons byte rest => exact skipSpace_cons (skipSpace_head h) rest

theorem consume_encode {w : List Char} (hw : Space w) {expected : UInt8} (hexpected : isSpace expected = false)
    (m : List UInt8) : consume expected (encode w ++ expected :: m) = (true, m) := by
  unfold consume
  rw [skipSpace_encode hw, skipSpace_cons hexpected]
  exact if_pos rfl

theorem consume_ne {w : List Char} (hw : Space w) {expected byte : UInt8} (hspace : isSpace byte = false)
    (hne : byte ≠ expected) (m : List UInt8) : consume expected (encode w ++ byte :: m) =
    (false, byte :: m) := by
  unfold consume
  rw [skipSpace_encode hw, skipSpace_cons hspace]
  exact if_neg hne

theorem consume_true {expected : UInt8} {m rest : List UInt8} (h : consume expected m = (true, rest)) :
    ∃ w, Space w ∧ m = encode w ++ expected :: rest := by
  obtain ⟨w, hw, hm⟩ := skipSpace_split m
  unfold consume at h
  cases hskip : skipSpace m with
  | nil =>
    rw [hskip] at h
    cases h
  | cons byte after =>
    rw [hskip] at h hm
    dsimp only at h
    split at h
    · rename_i heq
      obtain ⟨-, rfl⟩ := Prod.mk.inj h
      exact ⟨w, hw, heq ▸ hm⟩
    · cases h

theorem consume_false {expected : UInt8} {m rest : List UInt8} (h : consume expected m = (false, rest)) :
    rest = skipSpace m := by
  unfold consume at h
  cases hskip : skipSpace m with
  | nil =>
    rw [hskip] at h
    exact (Prod.mk.inj h).2.symm
  | cons byte after =>
    rw [hskip] at h
    dsimp only at h
    split at h
    · cases h
    · exact (Prod.mk.inj h).2.symm

theorem literal_map (word : List Char) (rest : List UInt8) : literal word (word.map ascii ++ rest) =
    some rest := by
  have hlength : word.length = (word.map ascii).length := (List.length_map ascii).symm
  unfold literal
  rw [hlength, List.take_left, List.drop_left, if_pos rfl]

theorem literal_some {word : List Char} {m rest : List UInt8} (h : literal word m = some rest) :
    m = word.map ascii ++ rest := by
  unfold literal at h
  split at h
  · rename_i htake
    rw [← Option.some.inj h, ← htake, List.take_append_drop]
  · cases h

theorem literal_head {c : Char} {word : List Char} {byte : UInt8} (h : byte ≠ ascii c) (m : List UInt8) :
    literal (c :: word) (byte :: m) = none := by
  refine if_neg fun htake => h ?_
  exact (List.cons.inj htake).1

-- ---------------------------------------------------------------------------
-- Numbers
-- ---------------------------------------------------------------------------

theorem toNat_digitChar (d : Fin 10) : (digitChar d).toNat = 48 + d := toNat_ofNat (by omega)

theorem digitChar_lt (d : Fin 10) : (digitChar d).toNat < 128 := by
  rw [toNat_digitChar]
  omega

theorem digit_eq_some {byte : UInt8} {d : Fin 10} : digit byte = some d ↔ byte = ascii (digitChar d) := by
  rw [← UInt8.toNat_inj, toNat_ascii (digitChar_lt d), toNat_digitChar]
  unfold digit
  constructor
  · intro h
    split at h
    · rw [← Option.some.inj h]
      show byte.toNat = 48 + (byte.toNat - 48)
      omega
    · cases h
  · intro h
    rw [dif_pos (by omega)]
    refine congrArg some (Fin.ext ?_)
    show byte.toNat - 48 = d
    omega

theorem encode_digits (digits : List (Fin 10)) : encode (digits.map digitChar) = digits.map
    (ascii ∘ digitChar) := by
  rw [encode_map fun c hc => ?_, List.map_map]
  obtain ⟨d, -, rfl⟩ := List.mem_map.mp hc
  exact digitChar_lt d

theorem readDigits_split (m : List UInt8) : m = encode ((readDigits m).1.map digitChar) ++
    (readDigits m).2 := by
  induction m with
  | nil => rfl
  | cons byte m ih =>
    unfold readDigits
    cases hdigit : digit byte with
    | none => rfl
    | some d =>
      dsimp only
      rw [List.map_cons, encode_ascii (digitChar_lt d), List.cons_append, ← ih, digit_eq_some.mp hdigit]

theorem readDigits_encode (digits : List (Fin 10)) {m : List UInt8} (h : ∀ byte ∈ m.head?, digit byte = none) :
    readDigits (encode (digits.map digitChar) ++ m) = (digits, m) := by
  induction digits with
  | nil =>
    cases m with
    | nil => rfl
    | cons byte m =>
      show readDigits (byte :: m) = _
      unfold readDigits
      rw [h byte rfl]
  | cons d digits ih =>
    rw [List.map_cons, encode_ascii (digitChar_lt d), List.cons_append]
    unfold readDigits
    rw [digit_eq_some.mpr rfl]
    dsimp only
    rw [ih]

theorem readSign_split (m : List UInt8) : m = encode (Sign.text (readSign m).1) ++ (readSign m).2 := by
  cases m with
  | nil => rfl
  | cons byte m =>
    rw [readSign]
    split
    · rename_i hplus
      rw [hplus]
      rfl
    · split
      · rename_i hminus
        rw [hminus]
        rfl
      · rfl

theorem readSign_encode (sign : Option Sign) {m : List UInt8}
    (h : ∀ byte ∈ m.head?, byte ≠ ascii '+' ∧ byte ≠ ascii '-') :
    readSign (encode (Sign.text sign) ++ m) = (sign, m) := by
  match sign with
  | none =>
    cases m with
    | nil => rfl
    | cons byte m =>
      obtain ⟨hplus, hminus⟩ := h byte rfl
      show readSign (byte :: m) = _
      rw [readSign, if_neg hplus, if_neg hminus]
  | some .plus => rfl
  | some .minus => rfl

theorem readFraction_split (m : List UInt8) :
    m = encode ((readFraction m).1.elim [] fun digits => '.' :: digits.map digitChar) ++
      (readFraction m).2 := by
  cases m with
  | nil => rfl
  | cons byte m =>
    rw [readFraction]
    split
    · rename_i hpoint
      rw [hpoint]
      show ascii '.' :: m = encode ('.' :: (readDigits m).1.map digitChar) ++ (readDigits m).2
      rw [encode_ascii (by decide), List.cons_append, ← readDigits_split]
    · rfl

theorem readFraction_encode (fraction : Option (List (Fin 10))) {m : List UInt8}
    (h : ∀ byte ∈ m.head?, digit byte = none ∧ byte ≠ ascii '.') :
    readFraction (encode (fraction.elim [] fun digits => '.' :: digits.map digitChar) ++ m) = (fraction,
      m) := by
  cases fraction with
  | none =>
    cases m with
    | nil => rfl
    | cons byte m =>
      show readFraction (byte :: m) = _
      rw [readFraction, if_neg (h byte rfl).2]
  | some digits =>
    show readFraction (encode ('.' :: digits.map digitChar) ++ m) = _
    rw [encode_ascii (by decide), List.cons_append, readFraction, if_pos rfl,
      readDigits_encode digits fun byte hbyte => (h byte hbyte).1]

theorem readExponent_split (m : List UInt8) :
    m = encode ((readExponent m).1.elim [] Exponent.text) ++ (readExponent m).2 ∧
      ∀ e ∈ (readExponent m).1, e.digits ≠ [] := by
  cases m with
  | nil => exact ⟨rfl, by rintro _ ⟨⟩⟩
  | cons byte m =>
    rw [readExponent]
    split
    · rename_i hletter
      dsimp only
      split
      · exact ⟨rfl, by rintro _ ⟨⟩⟩
      · rename_i hdigits
        refine ⟨?_, fun e he => Option.some.inj he ▸ hdigits⟩
        have hrest : m = encode (Sign.text (readSign m).1 ++ (readDigits (readSign m).2).1.map digitChar) ++
            (readDigits (readSign m).2).2 := by
          rw [encode_append, List.append_assoc, ← readDigits_split, ← readSign_split]
        show byte :: m = encode ((if decide (byte = ascii 'E') = true then 'E' else 'e') ::
          (Sign.text (readSign m).1 ++ (readDigits (readSign m).2).1.map digitChar)) ++
            (readDigits (readSign m).2).2
        split
        · rename_i hupper
          rw [encode_ascii (by decide), List.cons_append, ← hrest, of_decide_eq_true hupper]
        · rename_i hlower
          rw [encode_ascii (by decide), List.cons_append, ← hrest,
            hletter.resolve_right fun hupper => hlower (decide_eq_true hupper)]
    · exact ⟨rfl, by rintro _ ⟨⟩⟩

theorem head?_digits {digits : List (Fin 10)} (hne : digits ≠ []) (m : List UInt8) :
    ∃ d, (encode (digits.map digitChar) ++ m).head? = some (ascii (digitChar d)) := by
  cases digits with
  | nil => exact absurd rfl hne
  | cons d digits => exact ⟨d, by rw [List.map_cons, encode_ascii (digitChar_lt d)]; rfl⟩

theorem unsigned_digit (d : Fin 10) : ascii (digitChar d) ≠ ascii '+' ∧ ascii (digitChar d) ≠ ascii '-' := by
  have hplus : (ascii '+').toNat = 43 := rfl
  have hminus : (ascii '-').toNat = 45 := rfl
  have hdigit : (ascii (digitChar d)).toNat = 48 + d := (toNat_ascii (digitChar_lt d)).trans (toNat_digitChar d)
  refine ⟨fun heq => ?_, fun heq => ?_⟩
  · rw [heq] at hdigit
    omega
  · rw [heq] at hdigit
    omega

theorem readExponent_encode {e : Exponent} (h : e.digits ≠ []) : readExponent (encode e.text) =
    (some e, []) := by
  obtain ⟨upper, sign, digits⟩ := e
  have hsign : readSign (encode (Sign.text sign) ++ (encode (digits.map digitChar) ++ [])) =
      (sign, encode (digits.map digitChar) ++ []) := by
    refine readSign_encode sign fun byte hbyte => ?_
    obtain ⟨d, hd⟩ := head?_digits h []
    rw [← Option.some.inj (hd.symm.trans hbyte)]
    exact unsigned_digit d
  have hdigits : readDigits (encode (digits.map digitChar) ++ []) = (digits, []) :=
    readDigits_encode digits nofun
  unfold Exponent.text
  cases upper with
  | true =>
    rw [if_pos rfl, encode_ascii (by decide), encode_append,
      ← List.append_nil (encode (digits.map digitChar)), readExponent,
      if_pos (.inr rfl), hsign]
    dsimp only
    rw [hdigits]
    exact if_neg h
  | false =>
    rw [if_neg Bool.false_ne_true, encode_ascii (by decide), encode_append,
      ← List.append_nil (encode (digits.map digitChar)),
      readExponent, if_pos (.inl rfl), hsign]
    dsimp only
    rw [hdigits]
    exact if_neg h

/-- What may follow the digits of a number. -/
theorem head?_exponent (exponent : Option Exponent) :
    ∀ byte ∈ (encode (exponent.elim [] Exponent.text)).head?,
      (digit byte = none ∧ byte ≠ ascii '.') ∧ byte ≠ ascii '+' ∧ byte ≠ ascii '-' := by
  intro byte hbyte
  cases exponent with
  | none => cases hbyte
  | some e =>
    obtain ⟨upper, sign, digits⟩ := e
    cases upper with
    | true =>
      rw [Option.elim, Exponent.text, if_pos rfl, encode_ascii (by decide)] at hbyte
      obtain rfl := Option.some.inj hbyte
      decide
    | false =>
      rw [Option.elim, Exponent.text, if_neg Bool.false_ne_true, encode_ascii (by decide)] at hbyte
      obtain rfl := Option.some.inj hbyte
      decide

theorem head?_fraction (fraction : Option (List (Fin 10))) (exponent : Option Exponent) :
    ∀ byte ∈ (encode (fraction.elim [] fun digits => '.' :: digits.map digitChar) ++
        encode (exponent.elim [] Exponent.text)).head?,
      digit byte = none ∧ byte ≠ ascii '+' ∧ byte ≠ ascii '-' := by
  intro byte hbyte
  cases fraction with
  | none =>
    obtain ⟨⟨hdigit, -⟩, hsign⟩ := head?_exponent exponent byte hbyte
    exact ⟨hdigit, hsign⟩
  | some digits =>
    rw [Option.elim, encode_ascii (by decide)] at hbyte
    obtain rfl := Option.some.inj hbyte
    decide

theorem readNumeral_split (m : List UInt8) :
    m = encode (readNumeral m).1.text ++ (readNumeral m).2 ∧ (readNumeral m).1.Exponential := by
  obtain ⟨hexponent, hdigits⟩ := readExponent_split (readFraction (readDigits (readSign m).2).2).2
  refine ⟨?_, hdigits⟩
  unfold Numeral.text
  rw [encode_append, encode_append, encode_append, List.append_assoc, List.append_assoc, List.append_assoc]
  show m = encode (Sign.text (readSign m).1) ++ (encode ((readDigits (readSign m).2).1.map digitChar) ++
    (encode ((readFraction (readDigits (readSign m).2).2).1.elim [] fun digits => '.' :: digits.map digitChar)
    ++
      (encode ((readExponent (readFraction (readDigits (readSign m).2).2).2).1.elim [] Exponent.text) ++
        (readExponent (readFraction (readDigits (readSign m).2).2).2).2)))
  rw [← hexponent, ← readFraction_split, ← readDigits_split, ← readSign_split]

theorem readNumeral_encode {n : Numeral} (h : n.Exponential) : readNumeral (encode n.text) = (n, []) := by
  obtain ⟨sign, whole, fraction, exponent⟩ := n
  unfold Numeral.text
  rw [encode_append, encode_append, encode_append, List.append_assoc, List.append_assoc]
  unfold readNumeral
  rw [readSign_encode sign fun byte hbyte => ?_]
  · dsimp only
    rw [readDigits_encode whole fun byte hbyte => (head?_fraction fraction exponent byte hbyte).1]
    dsimp only
    rw [readFraction_encode fraction fun byte hbyte => (head?_exponent exponent byte hbyte).1]
    dsimp only
    cases exponent with
    | none => rfl
    | some e =>
      rw [Option.elim, readExponent_encode (h e rfl)]
  · cases whole with
    | nil => exact (head?_fraction fraction exponent byte hbyte).2
    | cons d whole =>
      rw [List.map_cons, encode_ascii (digitChar_lt d)] at hbyte
      rw [← Option.some.inj hbyte]
      exact unsigned_digit d

theorem strtod_encode {n : Numeral} (h : n.Decimal) : strtod (encode n.text) = (toDouble n.value, []) := by
  unfold strtod
  rw [readNumeral_encode h.exponent]
  exact if_neg h.mantissa

theorem strtod_some {token : List UInt8} {value : Double} (hne : token ≠ []) (h : strtod token = (value, [])) :
    ∃ n : Numeral, n.Decimal ∧ encode n.text = token ∧ toDouble n.value = value := by
  obtain ⟨htext, hexponent⟩ := readNumeral_split token
  unfold strtod at h
  dsimp only at h
  split at h
  · exact absurd (Prod.mk.inj h).2 hne
  · rename_i hmantissa
    obtain ⟨hvalue, hrest⟩ := Prod.mk.inj h
    refine ⟨(readNumeral token).1, ⟨hmantissa, hexponent⟩, ?_, hvalue⟩
    rw [hrest, List.append_nil] at htext
    exact htext.symm

-- ---------------------------------------------------------------------------
-- Numbers among what follows them
-- ---------------------------------------------------------------------------

/-- What follows does not go on with a number. -/
def Follow (rest : List UInt8) : Prop := ∀ byte ∈ rest.head?, isNumberByte byte = false

theorem isNumberByte_digit (d : Fin 10) : isNumberByte (ascii (digitChar d)) = true := by
  unfold isNumberByte
  rw [digit_eq_some.mpr rfl]
  rfl

theorem isNumberByte_digits (digits : List (Fin 10)) : ∀ byte ∈ encode (digits.map digitChar),
    isNumberByte byte = true := by
  intro byte hbyte
  rw [encode_digits] at hbyte
  obtain ⟨d, -, rfl⟩ := List.mem_map.mp hbyte
  exact isNumberByte_digit d

theorem isNumberByte_sign (sign : Option Sign) : ∀ byte ∈ encode (Sign.text sign),
    isNumberByte byte = true := by
  have hone {c : Char} (hascii : c.toNat < 128) (hc : isNumberByte (ascii c) = true) :
    ∀ byte ∈ encode [c], isNumberByte byte = true := by
    intro byte hbyte
    rw [encode_ascii hascii, encode_nil] at hbyte
    exact List.mem_singleton.mp hbyte ▸ hc
  match sign with
  | none => exact nofun
  | some .plus => exact hone (by decide) (by decide)
  | some .minus => exact hone (by decide) (by decide)

theorem isNumberByte_text (n : Numeral) : ∀ byte ∈ encode n.text, isNumberByte byte = true := by
  obtain ⟨sign, whole, fraction, exponent⟩ := n
  intro byte hbyte
  unfold Numeral.text at hbyte
  rw [encode_append, encode_append, encode_append, List.mem_append, List.mem_append, List.mem_append] at hbyte
  obtain ((hsign | hwhole) | hfraction) | hexponent := hbyte
  · exact isNumberByte_sign sign byte hsign
  · exact isNumberByte_digits whole byte hwhole
  · cases fraction with
    | none => cases hfraction
    | some digits =>
      rw [Option.elim, encode_ascii (by decide)] at hfraction
      obtain rfl | hdigits := List.mem_cons.mp hfraction
      · decide
      · exact isNumberByte_digits digits byte hdigits
  · cases exponent with
    | none => cases hexponent
    | some e =>
      obtain ⟨upper, sign, digits⟩ := e
      have hafter (hafter : byte ∈ encode (Sign.text sign ++ digits.map digitChar)) :
        isNumberByte byte = true := by
        rw [encode_append, List.mem_append] at hafter
        exact hafter.elim (isNumberByte_sign sign byte) (isNumberByte_digits digits byte)
      cases upper with
      | true =>
        rw [Option.elim, Exponent.text, if_pos rfl, encode_ascii (by decide)] at hexponent
        obtain rfl | hrest := List.mem_cons.mp hexponent
        · decide
        · exact hafter hrest
      | false =>
        rw [Option.elim, Exponent.text, if_neg Bool.false_ne_true, encode_ascii (by decide)] at hexponent
        obtain rfl | hrest := List.mem_cons.mp hexponent
        · decide
        · exact hafter hrest

theorem Numeral.Decimal.ne_nil {n : Numeral} (h : n.Decimal) : encode n.text ≠ [] := by
  intro hnil
  have hread := readNumeral_encode h.exponent
  rw [hnil] at hread
  exact h.mantissa ((congrArg (fun read => Numeral.mantissa read.1) hread).symm.trans rfl)

/-- The sign is one of the bytes the loop takes. -/
theorem parseNumber_eq (m : List UInt8) :
    parseNumber m =
      if m.takeWhile isNumberByte = [] then none
      else if (strtod (m.takeWhile isNumberByte)).2 ≠ [] ∨ (strtod (m.takeWhile isNumberByte)).1 =
        none then none
      else some (.number (strtod (m.takeWhile isNumberByte)).1, m.dropWhile isNumberByte) := by
  unfold parseNumber
  have hminus : isNumberByte (ascii '-') = true := by decide
  cases m with
  | nil => rfl
  | cons byte m =>
    by_cases hbyte : byte = ascii '-'
    · rw [hbyte, List.takeWhile_cons_of_pos hminus, List.dropWhile_cons_of_pos hminus]
      rfl
    · have hhead : ¬ (byte :: m).head? = some (ascii '-') := fun h => hbyte (Option.some.inj h)
      rw [if_neg hhead]
      rfl

theorem parseNumber_encode {n : Numeral} {q : ℚ} {rest : List UInt8} (h : n.Decimal)
    (hq : toDouble n.value = some q)
    (hrest : Follow rest) : parseNumber (encode n.text ++ rest) = some (.number (some q), rest) := by
  have hstop : rest.takeWhile isNumberByte = [] ∧ rest.dropWhile isNumberByte = rest := by
    cases rest with
    | nil => exact ⟨rfl, rfl⟩
    | cons byte rest =>
      have hnot : ¬ isNumberByte byte = true := by
        rw [hrest byte rfl]
        exact Bool.false_ne_true
      exact ⟨List.takeWhile_cons_of_neg hnot, List.dropWhile_cons_of_neg hnot⟩
  rw [parseNumber_eq, List.takeWhile_append_of_pos (isNumberByte_text n),
    List.dropWhile_append_of_pos (isNumberByte_text n),
    hstop.1, hstop.2, List.append_nil, if_neg h.ne_nil, strtod_encode h, hq]
  exact if_neg fun hbad => hbad.elim (fun hne => hne rfl) nofun

theorem parseNumber_some {m rest : List UInt8} {v : JsonValue} (h : parseNumber m = some (v, rest)) :
    ∃ (n : Numeral) (q : ℚ), n.Decimal ∧ toDouble n.value = some q ∧ v = .number (some q) ∧ m =
      encode n.text ++ rest := by
  rw [parseNumber_eq] at h
  split at h
  · cases h
  · rename_i hne
    split at h
    · cases h
    · rename_i hgood
      obtain ⟨htail, hfinite⟩ := not_or.mp hgood
      obtain ⟨rfl, rfl⟩ := Prod.mk.inj (Option.some.inj h)
      obtain ⟨n, hn, htext, hvalue⟩ := strtod_some hne (Prod.ext rfl (not_not.mp htail))
      obtain ⟨q, hq⟩ := Option.ne_none_iff_exists'.mp hfinite
      exact ⟨n, q, hn, hvalue.trans hq, by rw [hq], by rw [htext, List.takeWhile_append_dropWhile]⟩

-- ---------------------------------------------------------------------------
-- UTF-8
-- ---------------------------------------------------------------------------

theorem rejected_eq {first : UInt8} {count seed : ℕ} (h : Ancs.leading first = some (count, seed))
    (codePoint : ℕ) :
    Ancs.rejected count codePoint =
      decide (codePoint < minimum (count + 1) ∨ codePoint > 0x10ffff ∨ codePoint ≥ 0xd800 ∧
        codePoint ≤ 0xdfff) := by
  have hcount : count = 1 ∨ count = 2 ∨ count = 3 := by
    rw [Ancs.leading_eq] at h
    split at h
    · exact .inl (Prod.mk.inj (Option.some.inj h)).1.symm
    · split at h
      · exact .inr (.inl (Prod.mk.inj (Option.some.inj h)).1.symm)
      · split at h
        · exact .inr (.inr (Prod.mk.inj (Option.some.inj h)).1.symm)
        · cases h
  unfold Ancs.rejected minimum
  rw [decide_eq_decide]
  obtain rfl | rfl | rfl := hcount
  · rw [if_pos rfl]
    omega
  · rw [if_neg (by decide), if_pos rfl]
    omega
  · rw [if_neg (by decide), if_neg (by decide)]
    omega

theorem utf8SequenceLength_encode (c : Char) (m : List UInt8) :
    utf8SequenceLength (String.utf8EncodeChar c ++ m) = (String.utf8EncodeChar c).length := by
  by_cases hascii : 0x7f < c.toNat
  · obtain ⟨first, tail, heq, hfirst, seed, hleading, hcontinued, hrejected⟩ := Ancs.multibyte_encode c hascii
    rw [rejected_eq hleading, decide_eq_false_iff_not] at hrejected
    have hlead : ¬ first < 0x80 := by
      rw [UInt8.lt_iff_toNat_lt]
      rw [UInt8.le_iff_toNat_le] at hfirst
      have h7f : (0x7f : UInt8).toNat = 127 := rfl
      have h80 : (0x80 : UInt8).toNat = 128 := rfl
      omega
    rw [heq, List.cons_append, utf8SequenceLength, if_neg hlead, hleading]
    dsimp only
    rw [if_neg (by rw [List.length_append]; omega), List.take_left, hcontinued]
    exact if_neg hrejected
  · have hlead : ascii c < 0x80 := by
      rw [UInt8.lt_iff_toNat_lt, toNat_ascii (by omega)]
      show c.toNat < 128
      omega
    rw [Ancs.utf8EncodeChar_ascii hascii]
    exact if_pos hlead

theorem utf8SequenceLength_some {m : List UInt8} (h : utf8SequenceLength m ≠ 0) :
    ∃ c, m.take (utf8SequenceLength m) = String.utf8EncodeChar c := by
  cases m with
  | nil => exact absurd rfl h
  | cons lead rest =>
    rw [utf8SequenceLength] at h ⊢
    split at h
    · rename_i hlead
      have hsmall : lead.toNat < 128 := UInt8.lt_iff_toNat_lt.mp hlead
      rw [if_pos hlead]
      refine ⟨charOf lead, ?_⟩
      have hencode := encode_charOf hsmall []
      rw [encode_cons, encode_nil, List.append_nil] at hencode
      exact hencode.symm
    · rename_i hlead
      rw [if_neg hlead]
      cases hleading : Ancs.leading lead with
      | none =>
        rw [hleading] at h
        exact absurd rfl h
      | some announced =>
        obtain ⟨count, seed⟩ := announced
        rw [hleading] at h
        dsimp only at h ⊢
        split at h
        · exact absurd rfl h
        · rename_i hcount
          rw [if_neg hcount]
          cases hcontinued : Ancs.continued seed (rest.take count) with
          | none =>
            rw [hcontinued] at h
            exact absurd rfl h
          | some codePoint =>
            rw [hcontinued] at h
            dsimp only at h ⊢
            split at h
            · exact absurd rfl h
            · rename_i haccepted
              rw [if_neg haccepted]
              have hlength : (rest.take count).length = count :=
                List.length_take_of_le (Nat.le_of_not_lt hcount)
              obtain ⟨c, -, hc⟩ := Ancs.encode_multibyte
                (⟨seed, hlength.symm ▸ hleading, hcontinued, by
                  rw [hlength, rejected_eq hleading]; exact decide_eq_false haccepted⟩ :
                  Ancs.Multibyte lead (rest.take count) codePoint)
              exact ⟨c, hc.symm⟩

end Dmn.Json
