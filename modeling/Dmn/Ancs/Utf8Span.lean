import Dmn.Ancs.Utf8

/-!
# The validator on a span

`isValidUtf8` as the source runs it, by an index into the bytes: where it reads, when it returns,
and that it computes what the function on lists does.
-/

namespace Dmn.Ancs.Span

inductive Turn where
  -- A byte past the end is read.
  | outside
  | returns (valid : Bool)
  | goesOn (index : Nat)
  deriving DecidableEq

/-- The loop over the continuation bytes, in 32 bits. -/
def readContinuations (bytes : List UInt8) : Nat → Nat → Nat → Option (Option Nat)
  | _, 0, codePoint => some (some codePoint)
  | index, remaining + 1, codePoint =>
    match bytes[index]? with
    | none => none
    | some continuation =>
      if continuation.toNat &&& 0xc0 ≠ 0x80 then some none
      else readContinuations bytes (index + 1) remaining
        ((codePoint <<< 6) % 2 ^ 32 ||| (continuation.toNat &&& 0x3f))

/-- One turn of the loop over the characters. -/
def turn (bytes : List UInt8) (index : Nat) : Turn :=
  if index < bytes.length then
    match bytes[index]? with
    | none => .outside
    | some first =>
      if first ≤ 0x7f then .goesOn (index + 1)
      else match leading first with
        | none => .returns false
        | some (continuationCount, codePoint) =>
          if continuationCount > bytes.length - index - 1 then .returns false
          else match readContinuations bytes (index + 1) continuationCount codePoint with
            | none => .outside
            | some none => .returns false
            | some (some codePoint) =>
              if rejected continuationCount codePoint then .returns false
              else .goesOn (index + (continuationCount + 1))
  else .returns true

/-- The loop after a number of turns. -/
def loop (bytes : List UInt8) : Nat → Nat → Turn
  | 0, index => .goesOn index
  | turns + 1, index =>
    match turn bytes index with
    | .goesOn index => loop bytes turns index
    | ended => ended

-- ---------------------------------------------------------------------------
-- One character
-- ---------------------------------------------------------------------------

/-- Six bits for each continuation byte that is still to come do not carry out of 32. -/
theorem readContinuations_eq {bytes : List UInt8} {index remaining codePoint : Nat}
    (inside : index + remaining ≤ bytes.length) (small : codePoint * 64 ^ remaining < 2 ^ 32)
    (room : (codePoint + 1) * 64 ^ remaining ≤ 2 ^ 32) :
    readContinuations bytes index remaining codePoint =
      some (continued codePoint ((bytes.drop index).take remaining)) := by
  induction remaining generalizing index codePoint with
  | zero => simp [readContinuations, continued_nil]
  | succ remaining ih =>
    have below : index < bytes.length := by omega
    have power : 64 ^ (remaining + 1) = 64 * 64 ^ remaining := Nat.pow_succ'
    have positive : 0 < 64 ^ remaining := Nat.pow_pos (by decide)
    have kept : (codePoint <<< 6) % 2 ^ 32 = codePoint <<< 6 := by
      rw [Nat.shiftLeft_eq]
      refine Nat.mod_eq_of_lt (Nat.lt_of_le_of_lt ?_ small)
      rw [power]
      exact Nat.mul_le_mul_left _ (Nat.le_mul_of_pos_right 64 positive)
    rw [List.drop_eq_getElem_cons below, List.take_succ_cons, readContinuations,
      List.getElem?_eq_getElem below, kept]
    simp only [continued]
    split
    · rfl
    · rw [append_bits]
      have bits : bytes[index].toNat % 64 < 64 := Nat.mod_lt _ (by decide)
      have next : (codePoint * 64 + bytes[index].toNat % 64 + 1) * 64 ^ remaining ≤ 2 ^ 32 := by
        refine Nat.le_trans (Nat.mul_le_mul_right _ ?_) (by rwa [power, ← Nat.mul_assoc] at room)
        omega
      refine ih (by omega) (Nat.lt_of_lt_of_le ?_ next) next
      exact Nat.mul_lt_mul_of_pos_right (Nat.lt_succ_self _) positive

theorem leading_small {first : UInt8} {count seed : Nat} (lead : leading first = some (count, seed)) :
    (seed + 1) * 64 ^ count ≤ 2 ^ 32 := by
  rw [leading_eq] at lead
  split at lead
  · simp only [Option.some.injEq, Prod.mk.injEq] at lead
    obtain ⟨rfl, rfl⟩ := lead
    omega
  · split at lead
    · simp only [Option.some.injEq, Prod.mk.injEq] at lead
      obtain ⟨rfl, rfl⟩ := lead
      omega
    · split at lead
      · simp only [Option.some.injEq, Prod.mk.injEq] at lead
        obtain ⟨rfl, rfl⟩ := lead
        omega
      · cases lead

/-- A turn returns what the rest of the bytes says, or takes a character off. -/
theorem turn_cases (bytes : List UInt8) (index : Nat) :
    turn bytes index = .returns (isValidUtf8 (bytes.drop index)) ∨
      ∃ next, turn bytes index = .goesOn next ∧ index < next ∧ next ≤ bytes.length ∧
        isValidUtf8 (bytes.drop index) = isValidUtf8 (bytes.drop next) := by
  unfold turn
  split
  · next below =>
    rw [List.getElem?_eq_getElem below, List.drop_eq_getElem_cons below]
    generalize bytes[index] = first
    dsimp only
    split
    · next ascii =>
      exact .inr ⟨index + 1, rfl, Nat.lt_succ_self _, below, isValidUtf8_ascii ascii _⟩
    · next ascii =>
      rw [isValidUtf8, if_neg ascii]
      cases lead : leading first with
      | none => exact .inl rfl
      | some announced =>
        obtain ⟨count, seed⟩ := announced
        have length : (bytes.drop (index + 1)).length = bytes.length - index - 1 := by
          rw [List.length_drop, Nat.sub_sub]
        simp only [length]
        split
        · exact .inl rfl
        · next enough =>
          have small := leading_small lead
          have positive : 0 < 64 ^ count := Nat.pow_pos (by decide)
          have below' : seed * 64 ^ count < 2 ^ 32 :=
            Nat.lt_of_lt_of_le (Nat.mul_lt_mul_of_pos_right (Nat.lt_succ_self _) positive) small
          rw [readContinuations_eq (by omega) below' small]
          cases continued seed ((bytes.drop (index + 1)).take count) with
          | none => exact .inl rfl
          | some codePoint =>
            simp only [List.drop_drop]
            split
            · exact .inl rfl
            · refine .inr ⟨index + (count + 1), rfl, by omega, by omega, ?_⟩
              rw [Nat.add_assoc, Nat.add_comm 1 count]
  · next ended =>
    refine .inl ?_
    rw [List.drop_eq_nil_of_le (Nat.not_lt.mp ended), isValidUtf8_nil]

-- ---------------------------------------------------------------------------
-- The loop
-- ---------------------------------------------------------------------------

theorem loop_returns {bytes : List UInt8} {turns index : Nat}
    (enough : bytes.length - index < turns) :
    loop bytes turns index = .returns (isValidUtf8 (bytes.drop index)) := by
  induction turns generalizing index with
  | zero => omega
  | succ turns ih =>
    rcases turn_cases bytes index with returns | ⟨next, goesOn, later, within, same⟩
    · simp only [loop, returns]
    · simp only [loop, goesOn, same]
      exact ih (by omega)

theorem loop_inside (bytes : List UInt8) (turns index : Nat) :
    loop bytes turns index ≠ .outside := by
  induction turns generalizing index with
  | zero => nofun
  | succ turns ih =>
    rcases turn_cases bytes index with returns | ⟨next, goesOn, -⟩
    · simp only [loop, returns]
      nofun
    · simp only [loop, goesOn]
      exact ih next

/-- No turn reads outside of the bytes, one more turn than there are bytes is always enough to
return, and what is returned says whether the bytes are UTF-8. -/
theorem validator_exact (bytes : List UInt8) :
    (∀ turns, loop bytes turns 0 ≠ .outside) ∧
      ∃ valid, (∀ turns, bytes.length < turns → loop bytes turns 0 = .returns valid) ∧
        (valid = true ↔ WellFormedUtf8 bytes) := by
  refine ⟨fun turns => loop_inside bytes turns 0, isValidUtf8 bytes, fun turns enough => ?_,
    isValidUtf8_eq_true bytes⟩
  exact loop_returns enough

/-- A truncated character. -/
example : loop [0x41, 0xe2, 0x82] 4 0 = .returns false := by decide

end Dmn.Ancs.Span
