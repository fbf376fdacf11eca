import Mathlib

/-!
# UTF-8 validation

`isValidUtf8` of the attribute parser, byte for byte, and what it accepts: the
concatenations of the encodings of Unicode scalar values. `Char` is the type of
the scalar values, `String.utf8EncodeChar` the encoding of one.
-/

namespace Dmn.Ancs

-- ---------------------------------------------------------------------------
-- The validator
-- ---------------------------------------------------------------------------

/-- What a non-ASCII first byte announces: `continuationCount` and the first
bits of `codePoint`. -/
def leading (first : UInt8) : Option (Nat × Nat) :=
  if first ≥ 0xc2 ∧ first ≤ 0xdf then some (1, first.toNat &&& 0x1f)
  else if first ≥ 0xe0 ∧ first ≤ 0xef then some (2, first.toNat &&& 0x0f)
  else if first ≥ 0xf0 ∧ first ≤ 0xf4 then some (3, first.toNat &&& 0x07)
  else none

/-- The loop over the continuation bytes of one character. -/
def continued (codePoint : Nat) : List UInt8 → Option Nat
  | [] => some codePoint
  | continuation :: rest =>
    if continuation.toNat &&& 0xc0 ≠ 0x80 then none
    else continued (codePoint <<< 6 ||| (continuation.toNat &&& 0x3f)) rest

/-- Overlong forms, surrogates and values past the last code point. -/
def rejected (continuationCount codePoint : Nat) : Bool :=
  (continuationCount = 1 ∧ codePoint < 0x80) ∨ (continuationCount = 2 ∧ codePoint < 0x800) ∨
    (continuationCount = 3 ∧ codePoint < 0x10000) ∨
    (codePoint ≥ 0xd800 ∧ codePoint ≤ 0xdfff) ∨ codePoint > 0x10ffff

def isValidUtf8 : List UInt8 → Bool
  | [] => true
  | first :: rest =>
    if first ≤ 0x7f then isValidUtf8 rest
    else match leading first with
      | none => false
      | some (continuationCount, codePoint) =>
        if continuationCount > rest.length then false
        else match continued codePoint (rest.take continuationCount) with
          | none => false
          | some codePoint =>
            if rejected continuationCount codePoint then false
            else isValidUtf8 (rest.drop continuationCount)
termination_by bytes => bytes.length

/-- The encodings of the texts. -/
def WellFormedUtf8 (bytes : List UInt8) : Prop :=
  ∃ text : List Char, bytes = text.flatMap String.utf8EncodeChar

-- ---------------------------------------------------------------------------
-- The bit operations as arithmetic
-- ---------------------------------------------------------------------------

theorem and_high_bits (n : Nat) (hn : n < 256) : n &&& 0xc0 = 0x80 ↔ 0x80 ≤ n ∧ n < 0xc0 := by
  have all : ∀ n : Fin 256, n.val &&& 0xc0 = 0x80 ↔ 0x80 ≤ n.val ∧ n.val < 0xc0 := by
    decide +kernel
  exact all ⟨n, hn⟩

theorem append_bits (codePoint n : Nat) :
    codePoint <<< 6 ||| (n &&& 0x3f) = codePoint * 64 + n % 64 := by
  have low : n &&& 0x3f = n % 64 := Nat.and_two_pow_sub_one_eq_mod n 6
  rw [low, ← Nat.shiftLeft_add_eq_or_of_lt (Nat.mod_lt _ (by decide)), Nat.shiftLeft_eq]

theorem continued_nil (codePoint : Nat) : continued codePoint [] = some codePoint := rfl

theorem continued_cons (codePoint : Nat) (b : UInt8) (rest : List UInt8) :
    continued codePoint (b :: rest) =
      if 0x80 ≤ b.toNat ∧ b.toNat < 0xc0 then continued (codePoint * 64 + b.toNat % 64) rest
      else none := by
  rw [continued, append_bits]
  have high := and_high_bits b.toNat b.toNat_lt
  by_cases h : 0x80 ≤ b.toNat ∧ b.toNat < 0xc0
  · rw [if_neg (by simp [high.mpr h]), if_pos h]
  · rw [if_pos (fun e => h (high.mp e)), if_neg h]

theorem leading_eq (first : UInt8) :
    leading first =
      if 0xc2 ≤ first.toNat ∧ first.toNat ≤ 0xdf then some (1, first.toNat % 32)
      else if 0xe0 ≤ first.toNat ∧ first.toNat ≤ 0xef then some (2, first.toNat % 16)
      else if 0xf0 ≤ first.toNat ∧ first.toNat ≤ 0xf4 then some (3, first.toNat % 8)
      else none := by
  have h5 : first.toNat &&& 0x1f = first.toNat % 32 := Nat.and_two_pow_sub_one_eq_mod _ 5
  have h4 : first.toNat &&& 0x0f = first.toNat % 16 := Nat.and_two_pow_sub_one_eq_mod _ 4
  have h3 : first.toNat &&& 0x07 = first.toNat % 8 := Nat.and_two_pow_sub_one_eq_mod _ 3
  simp only [leading, ge_iff_le, UInt8.le_iff_toNat_le, h5, h4, h3]
  rfl

-- ---------------------------------------------------------------------------
-- One character
-- ---------------------------------------------------------------------------

/-- The bytes of one character after an ASCII test that failed: what the
validator checks before it goes on to the next. -/
def Multibyte (first : UInt8) (tail : List UInt8) (codePoint : Nat) : Prop :=
  ∃ seed, leading first = some (tail.length, seed) ∧ continued seed tail = some codePoint ∧
    rejected tail.length codePoint = false

theorem toNat_ofNat_small {n : Nat} (h : n < 256) : (UInt8.ofNat n).toNat = n := by
  rw [UInt8.toNat_ofNat']
  exact Nat.mod_eq_of_lt h

theorem multibyte_encode (c : Char) (h : 0x7f < c.toNat) :
    ∃ first tail, String.utf8EncodeChar c = first :: tail ∧ ¬ first ≤ 0x7f ∧
      Multibyte first tail c.toNat := by
  have valid : c.toNat < 0xd800 ∨ 0xdfff < c.toNat ∧ c.toNat < 0x110000 := c.valid
  have eq : c.val.toNat = c.toNat := rfl
  unfold String.utf8EncodeChar
  simp only [eq]
  generalize c.toNat = v at h valid
  rw [if_neg (by omega)]
  split
  · refine ⟨_, _, rfl, ?_, v / 64 % 32, ?_, ?_, ?_⟩
    · rw [UInt8.le_iff_toNat_le, toNat_ofNat_small (by omega)]
      show ¬ _ ≤ 127
      omega
    · rw [leading_eq, toNat_ofNat_small (by omega), if_pos (by omega)]
      simp only [List.length_cons, List.length_nil]
      congr 2; omega
    · simp only [continued_cons, continued_nil]
      rw [toNat_ofNat_small (by omega), if_pos (by omega)]
      congr 1; omega
    · simp only [rejected, List.length_cons, List.length_nil, decide_eq_false_iff_not]
      omega
  · split
    · refine ⟨_, _, rfl, ?_, v / 4096 % 16, ?_, ?_, ?_⟩
      · rw [UInt8.le_iff_toNat_le, toNat_ofNat_small (by omega)]
        show ¬ _ ≤ 127
        omega
      · rw [leading_eq, toNat_ofNat_small (by omega), if_neg (by omega), if_pos (by omega)]
        simp only [List.length_cons, List.length_nil]
        congr 2; omega
      · simp only [continued_cons, continued_nil]
        rw [toNat_ofNat_small (by omega), if_pos (by omega), toNat_ofNat_small (by omega),
          if_pos (by omega)]
        congr 1; omega
      · simp only [rejected, List.length_cons, List.length_nil, decide_eq_false_iff_not]
        omega
    · refine ⟨_, _, rfl, ?_, v / 262144 % 8, ?_, ?_, ?_⟩
      · rw [UInt8.le_iff_toNat_le, toNat_ofNat_small (by omega)]
        show ¬ _ ≤ 127
        omega
      · rw [leading_eq, toNat_ofNat_small (by omega), if_neg (by omega), if_neg (by omega),
          if_pos (by omega)]
        simp only [List.length_cons, List.length_nil]
        congr 2; omega
      · simp only [continued_cons, continued_nil]
        rw [toNat_ofNat_small (by omega), if_pos (by omega), toNat_ofNat_small (by omega),
          if_pos (by omega), toNat_ofNat_small (by omega), if_pos (by omega)]
        congr 1; omega
      · simp only [rejected, List.length_cons, List.length_nil, decide_eq_false_iff_not]
        omega

theorem encode_multibyte {first : UInt8} {tail : List UInt8} {codePoint : Nat}
    (h : Multibyte first tail codePoint) :
    ∃ c : Char, c.toNat = codePoint ∧ String.utf8EncodeChar c = first :: tail := by
  obtain ⟨seed, lead, cont, ok⟩ := h
  simp only [rejected, decide_eq_false_iff_not] at ok
  have valid : codePoint < 0xd800 ∨ 0xdfff < codePoint ∧ codePoint < 0x110000 := by omega
  refine ⟨Char.ofNatAux codePoint valid, rfl, ?_⟩
  have eq : (Char.ofNatAux codePoint valid).val.toNat = codePoint := rfl
  unfold String.utf8EncodeChar
  simp only [eq]
  have bound := first.toNat_lt
  rw [leading_eq] at lead
  split at lead
  · next r =>
    simp only [Option.some.injEq, Prod.mk.injEq] at lead
    obtain ⟨one, rfl⟩ := lead
    obtain ⟨b, rfl⟩ := List.length_eq_one_iff.mp one.symm
    simp only [continued_cons, continued_nil] at cont
    split at cont
    · have value : codePoint = first.toNat % 32 * 64 + b.toNat % 64 := by simpa using cont.symm
      have overlong : ¬ codePoint < 0x80 := fun h => ok (Or.inl ⟨rfl, h⟩)
      rw [if_neg (by omega), if_pos (by omega)]
      congr 1
      · apply UInt8.toNat.inj; rw [toNat_ofNat_small (by omega)]; omega
      · congr 1
        apply UInt8.toNat.inj; rw [toNat_ofNat_small (by omega)]; omega
    · cases cont
  split at lead
  · next r =>
    simp only [Option.some.injEq, Prod.mk.injEq] at lead
    obtain ⟨two, rfl⟩ := lead
    obtain ⟨b, b', rfl⟩ := List.length_eq_two.mp two.symm
    simp only [continued_cons, continued_nil] at cont
    split at cont
    · split at cont
      · have value : codePoint = (first.toNat % 16 * 64 + b.toNat % 64) * 64 + b'.toNat % 64 := by
          simpa using cont.symm
        have overlong : ¬ codePoint < 0x800 := fun h => ok (Or.inr (Or.inl ⟨rfl, h⟩))
        rw [if_neg (by omega), if_neg (by omega), if_pos (by omega)]
        congr 1
        · apply UInt8.toNat.inj; rw [toNat_ofNat_small (by omega)]; omega
        · congr 1
          · apply UInt8.toNat.inj; rw [toNat_ofNat_small (by omega)]; omega
          · congr 1
            apply UInt8.toNat.inj; rw [toNat_ofNat_small (by omega)]; omega
      · cases cont
    · cases cont
  split at lead
  · next r =>
    simp only [Option.some.injEq, Prod.mk.injEq] at lead
    obtain ⟨three, rfl⟩ := lead
    obtain ⟨b, b', b'', rfl⟩ := List.length_eq_three.mp three.symm
    simp only [continued_cons, continued_nil] at cont
    split at cont
    · split at cont
      · split at cont
        · have value : codePoint =
              ((first.toNat % 8 * 64 + b.toNat % 64) * 64 + b'.toNat % 64) * 64 +
                b''.toNat % 64 := by simpa using cont.symm
          have overlong : ¬ codePoint < 0x10000 :=
            fun h => ok (Or.inr (Or.inr (Or.inl ⟨rfl, h⟩)))
          rw [if_neg (by omega), if_neg (by omega), if_neg (by omega)]
          congr 1
          · apply UInt8.toNat.inj; rw [toNat_ofNat_small (by omega)]; omega
          · congr 1
            · apply UInt8.toNat.inj; rw [toNat_ofNat_small (by omega)]; omega
            · congr 1
              · apply UInt8.toNat.inj; rw [toNat_ofNat_small (by omega)]; omega
              · congr 1
                apply UInt8.toNat.inj; rw [toNat_ofNat_small (by omega)]; omega
        · cases cont
      · cases cont
    · cases cont
  · cases lead

-- ---------------------------------------------------------------------------
-- Whole strings
-- ---------------------------------------------------------------------------

theorem isValidUtf8_nil : isValidUtf8 [] = true := by
  rw [isValidUtf8]

theorem isValidUtf8_ascii {first : UInt8} (h : first ≤ 0x7f) (rest : List UInt8) :
    isValidUtf8 (first :: rest) = isValidUtf8 rest := by
  rw [isValidUtf8, if_pos h]

theorem isValidUtf8_multibyte {first : UInt8} {tail : List UInt8} {codePoint : Nat}
    (h : Multibyte first tail codePoint) (ascii : ¬ first ≤ 0x7f) (rest : List UInt8) :
    isValidUtf8 (first :: (tail ++ rest)) = isValidUtf8 rest := by
  obtain ⟨seed, lead, cont, ok⟩ := h
  rw [isValidUtf8, if_neg ascii, lead]
  simp [cont, ok]

theorem utf8EncodeChar_ascii {c : Char} (h : ¬ 0x7f < c.toNat) :
    String.utf8EncodeChar c = [UInt8.ofNat c.toNat] := by
  unfold String.utf8EncodeChar
  exact if_pos (by simpa using h)

theorem isValidUtf8_encode (c : Char) (rest : List UInt8) :
    isValidUtf8 (String.utf8EncodeChar c ++ rest) = isValidUtf8 rest := by
  by_cases h : 0x7f < c.toNat
  · obtain ⟨first, tail, eq, ascii, multi⟩ := multibyte_encode c h
    rw [eq, List.cons_append, isValidUtf8_multibyte multi ascii]
  · rw [utf8EncodeChar_ascii h, List.singleton_append]
    apply isValidUtf8_ascii
    rw [UInt8.le_iff_toNat_le, toNat_ofNat_small (by omega)]
    exact Nat.not_lt.mp h

theorem WellFormedUtf8.valid {bytes : List UInt8} (h : WellFormedUtf8 bytes) :
    isValidUtf8 bytes = true := by
  obtain ⟨text, rfl⟩ := h
  induction text with
  | nil => exact isValidUtf8_nil
  | cons c text ih => rw [List.flatMap_cons, isValidUtf8_encode, ih]

theorem WellFormedUtf8.encode {bytes : List UInt8} (h : WellFormedUtf8 bytes) (c : Char) :
    WellFormedUtf8 (String.utf8EncodeChar c ++ bytes) := by
  obtain ⟨text, rfl⟩ := h
  exact ⟨c :: text, by rw [List.flatMap_cons]⟩

theorem encode_ascii {first : UInt8} (h : first ≤ 0x7f) :
    ∃ c : Char, String.utf8EncodeChar c = [first] := by
  have small : first.toNat ≤ 0x7f := UInt8.le_iff_toNat_le.mp h
  refine ⟨Char.ofNatAux first.toNat (Or.inl (by omega)), ?_⟩
  rw [utf8EncodeChar_ascii]
  · congr 1
    exact UInt8.ofNat_toNat
  · exact Nat.not_lt.mpr small

/-- The induction follows the validator: one character is taken off per call. -/
theorem wellFormed_of_isValidUtf8 (bytes : List UInt8) (h : isValidUtf8 bytes = true) :
    WellFormedUtf8 bytes := by
  induction bytes using isValidUtf8.induct with
  | case1 => exact ⟨[], rfl⟩
  | case2 first rest ascii ih =>
    rw [isValidUtf8_ascii ascii] at h
    obtain ⟨c, eq⟩ := encode_ascii ascii
    simpa [eq] using (ih h).encode c
  | case3 first rest ascii lead => simp [isValidUtf8, ascii, lead] at h
  | case4 first rest ascii count seed lead short =>
    simp [isValidUtf8, ascii, lead, short] at h
  | case5 first rest ascii count seed lead short cont =>
    simp [isValidUtf8, ascii, lead, short, cont] at h
  | case6 first rest ascii count seed lead short codePoint cont bad =>
    simp [isValidUtf8, ascii, lead, short, cont, bad] at h
  | case7 first rest ascii count seed lead short codePoint cont good ih =>
    simp only [isValidUtf8, ascii, if_false, lead, short, cont, good] at h
    have length : (rest.take count).length = count := by
      rw [List.length_take]; omega
    have multi : Multibyte first (rest.take count) codePoint :=
      ⟨seed, by rw [length, lead], cont, by rw [length]; simpa using good⟩
    obtain ⟨c, -, eq⟩ := encode_multibyte multi
    have := (ih (by simpa using h)).encode c
    rwa [eq, List.cons_append, List.take_append_drop] at this

theorem isValidUtf8_eq_true (bytes : List UInt8) :
    isValidUtf8 bytes = true ↔ WellFormedUtf8 bytes :=
  ⟨wellFormed_of_isValidUtf8 bytes, WellFormedUtf8.valid⟩

end Dmn.Ancs
