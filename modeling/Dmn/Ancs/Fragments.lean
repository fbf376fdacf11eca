import Dmn.Ancs.DataSource

/-!
# Fragmentation

Parsing a prefix and then the rest is parsing the whole: the loop over the
tuples stops only where more bytes may matter, and the reassembler carries over
exactly what the loop needs to go on. So however a response is cut, the first
terminal result is the one the whole response gives in a single call.
-/

namespace Dmn.Ancs

-- ---------------------------------------------------------------------------
-- The loop over the tuples
-- ---------------------------------------------------------------------------

theorem parseTuples_done {index : Nat} (h : ¬ index < kRequestedAttributeIds.length)
    (rest : List UInt8) (attributes : AttributeSet) :
    parseTuples rest index attributes = { rest, index, attributes } := by
  rw [parseTuples, dif_neg h]

theorem parseTuples_stop {rest : List UInt8} {index : Nat}
    (h : index < kRequestedAttributeIds.length) (attributes : AttributeSet)
    (short : ∀ attributeId low high value,
      rest = attributeId :: low :: high :: value → False) :
    parseTuples rest index attributes = { rest, index, attributes } := by
  rw [parseTuples, dif_pos h]
  split
  · exact absurd rfl (short _ _ _ _)
  · rfl

section Header

variable {index : Nat} (h : index < kRequestedAttributeIds.length) {attributeId low high : UInt8}
  {value : List UInt8} (attributes : AttributeSet)

theorem parseTuples_order (other : attributeId ≠ kRequestedAttributeIds[index])
    (requested : isRequestedAttribute attributeId = true) :
    parseTuples (attributeId :: low :: high :: value) index attributes =
      { rest := attributeId :: low :: high :: value, index, attributes,
        error := some .order } := by
  rw [parseTuples, dif_pos h]
  simp [other, requested]

theorem parseTuples_skip (other : attributeId ≠ kRequestedAttributeIds[index])
    (unknown : ¬ isRequestedAttribute attributeId = true)
    (whole : ¬ readUint16LittleEndian low high > value.length) :
    parseTuples (attributeId :: low :: high :: value) index attributes =
      parseTuples (value.drop (readUint16LittleEndian low high)) index attributes := by
  rw [parseTuples, dif_pos h]
  simp only [other, unknown, whole, ne_eq, not_false_eq_true, if_true, if_false,
    Bool.false_eq_true]

theorem parseTuples_skip_cut (other : attributeId ≠ kRequestedAttributeIds[index])
    (unknown : ¬ isRequestedAttribute attributeId = true)
    (cut : readUint16LittleEndian low high > value.length) :
    parseTuples (attributeId :: low :: high :: value) index attributes =
      { rest := attributeId :: low :: high :: value, index, attributes } := by
  rw [parseTuples, dif_pos h]
  simp [other, unknown, cut]

variable (expected : attributeId = kRequestedAttributeIds[index])
include expected

theorem parseTuples_size
    (large : readUint16LittleEndian low high > kMaximumAttributeSizes[index]) :
    parseTuples (attributeId :: low :: high :: value) index attributes =
      { rest := attributeId :: low :: high :: value, index, attributes,
        error := some .attributeSize } := by
  rw [parseTuples, dif_pos h]
  simp [expected, large]

variable (small : ¬ readUint16LittleEndian low high > kMaximumAttributeSizes[index])
include small

theorem parseTuples_cut (cut : readUint16LittleEndian low high > value.length) :
    parseTuples (attributeId :: low :: high :: value) index attributes =
      { rest := attributeId :: low :: high :: value, index, attributes } := by
  rw [parseTuples, dif_pos h]
  simp only [expected, small, cut, ne_eq, not_true_eq_false, if_true, if_false]

variable (whole : ¬ readUint16LittleEndian low high > value.length)
include whole

theorem parseTuples_utf8
    (malformed : ¬ isValidUtf8 (value.take (readUint16LittleEndian low high)) = true) :
    parseTuples (attributeId :: low :: high :: value) index attributes =
      { rest := attributeId :: low :: high :: value, index, attributes,
        error := some .utf8 } := by
  rw [parseTuples, dif_pos h]
  simp only [expected, small, whole, malformed, ne_eq, not_true_eq_false, not_false_eq_true,
    if_true, if_false, Bool.false_eq_true]

theorem parseTuples_accept
    (valid : isValidUtf8 (value.take (readUint16LittleEndian low high)) = true) :
    parseTuples (attributeId :: low :: high :: value) index attributes =
      parseTuples (value.drop (readUint16LittleEndian low high)) (index + 1)
        (assignAttribute attributes index
          (value.take (readUint16LittleEndian low high))) := by
  rw [parseTuples, dif_pos h]
  simp only [expected, small, whole, valid, ne_eq, not_true_eq_false, if_false]

end Header

/-- The loop over `rest` followed by more bytes: an error stands, and where the
loop stopped without one it goes on from its cursor. -/
theorem parseTuples_append (rest more : List UInt8) (index : Nat) (attributes : AttributeSet) :
    parseTuples (rest ++ more) index attributes =
      let scan := parseTuples rest index attributes
      if scan.error.isSome then { scan with rest := scan.rest ++ more }
      else parseTuples (scan.rest ++ more) scan.index scan.attributes := by
  induction rest, index, attributes using parseTuples.induct with
  | case1 index attributes h attributeId low high value other requested =>
    simp only [List.cons_append, parseTuples_order h attributes other requested]
    rfl
  | case2 index attributes h attributeId low high value length other unknown cut =>
    simp only [parseTuples_skip_cut h attributes other unknown cut]
    rfl
  | case3 index attributes h attributeId low high value length other unknown whole ih =>
    have whole' : ¬ readUint16LittleEndian low high > (value ++ more).length := by
      rw [List.length_append]; omega
    simp only [List.cons_append]
    rw [parseTuples_skip h attributes other unknown whole,
      parseTuples_skip h attributes other unknown whole',
      List.drop_append_of_le_length (by omega), ih]
  | case4 index attributes h attributeId low high value length expected large =>
    simp only [List.cons_append,
      parseTuples_size h attributes (not_not.mp expected) large]
    rfl
  | case5 index attributes h attributeId low high value length expected small cut =>
    simp only [parseTuples_cut h attributes (not_not.mp expected) small cut]
    rfl
  | case6 index attributes h attributeId low high value length expected small whole malformed =>
    have whole' : ¬ readUint16LittleEndian low high > (value ++ more).length := by
      rw [List.length_append]; omega
    have same := @List.take_append_of_le_length _ _ more _ (Nat.not_lt.mp whole)
    simp only [List.cons_append]
    rw [parseTuples_utf8 h attributes (not_not.mp expected) small whole malformed,
      parseTuples_utf8 h attributes (not_not.mp expected) small whole' (by rwa [same])]
    rfl
  | case7 index attributes h attributeId low high value length expected small whole valid ih =>
    have whole' : ¬ readUint16LittleEndian low high > (value ++ more).length := by
      rw [List.length_append]; omega
    have same := @List.take_append_of_le_length _ _ more _ (Nat.not_lt.mp whole)
    simp only [List.cons_append]
    rw [parseTuples_accept h attributes (not_not.mp expected) small whole (not_not.mp valid),
      parseTuples_accept h attributes (not_not.mp expected) small whole'
        (by rw [same]; exact not_not.mp valid), same,
      List.drop_append_of_le_length (by omega), ih]
  | case8 rest index attributes h short =>
    rw [parseTuples_stop h attributes short]
    rfl
  | case9 rest index attributes done =>
    rw [parseTuples_done done rest]
    rfl

-- ---------------------------------------------------------------------------
-- One call
-- ---------------------------------------------------------------------------

/-- What a call returns after the loop over the tuples. -/
def Scan.result (scan : Scan) : Result :=
  match scan.error with
  | some error => .error error
  | none =>
    if scan.index = kRequestedAttributeIds.length then
      if scan.rest ≠ [] then .error .trailing else .ok (some scan.attributes)
    else .ok none

/-- The result on a whole response, as a function of its bytes. -/
def result (expectedUid : UInt32) (bytes : List UInt8) : Result :=
  match bytes with
  | command :: b0 :: b1 :: b2 :: b3 :: rest =>
    if command ≠ 0 then .error .command
    else if readUint32LittleEndian b0 b1 b2 b3 ≠ expectedUid.toNat then .error .responseUid
    else (parseTuples rest 0 {}).result
  | _ => .ok none

theorem Scan.result_none {scan : Scan} (h : scan.result = .ok none) :
    scan.error = none ∧ scan.index ≠ kRequestedAttributeIds.length := by
  unfold Scan.result at h
  split at h
  · cases h
  · next eq =>
    split at h
    · split at h <;> cases h
    · next more => exact ⟨eq, more⟩

/-- More bytes after a terminal result: an error stands, a completed response is
followed by unrequested data. -/
theorem Scan.result_append {rest : List UInt8} {index : Nat} {attributes : AttributeSet}
    (more : List UInt8) (nonempty : more ≠ [])
    (h : (parseTuples rest index attributes).result ≠ .ok none) :
    (parseTuples (rest ++ more) index attributes).result =
      match (parseTuples rest index attributes).result with
      | .error error => .error error
      | .ok _ => .error .trailing := by
  rw [parseTuples_append]
  generalize parseTuples rest index attributes = scan at h ⊢
  cases error : scan.error with
  | some e => simp [Scan.result, error]
  | none =>
    simp only [Scan.result, error] at h ⊢
    by_cases last : scan.index = kRequestedAttributeIds.length
    · rw [parseTuples_done (by omega)]
      simp only [last, if_true]
      by_cases empty : scan.rest = []
      · simp [empty, nonempty]
      · simp [empty]
    · exact absurd (if_neg last) h

theorem result_append {expectedUid : UInt32} {bytes : List UInt8} (more : List UInt8)
    (nonempty : more ≠ []) (h : result expectedUid bytes ≠ .ok none) :
    result expectedUid (bytes ++ more) =
      match result expectedUid bytes with
      | .error error => .error error
      | .ok _ => .error .trailing := by
  unfold result at h ⊢
  split at h
  · next command b0 b1 b2 b3 rest =>
    simp only [List.cons_append]
    by_cases first : command ≠ 0
    · rw [if_pos first, if_pos first]
    · rw [if_neg first] at h ⊢
      rw [if_neg first]
      by_cases uid : readUint32LittleEndian b0 b1 b2 b3 ≠ expectedUid.toNat
      · rw [if_pos uid, if_pos uid]
      · rw [if_neg uid] at h ⊢
        rw [if_neg uid]
        exact Scan.result_append more nonempty h
  · exact absurd rfl h

namespace Reassembler

theorem consumeTuples_result (r : Reassembler) (rest : List UInt8) :
    (r.consumeTuples rest).1 =
      (parseTuples rest r.expectedAttributeIndex r.attributes).result := by
  unfold consumeTuples Scan.result
  generalize parseTuples rest r.expectedAttributeIndex r.attributes = scan
  simp only
  cases scan.error with
  | some error => rfl
  | none =>
    simp only
    split
    · split <;> rfl
    · rfl

/-- The reassembler after an incomplete prefix of a response. -/
def after (expectedUid : UInt32) (bytes : List UInt8) : Reassembler :=
  match bytes with
  | _ :: _ :: _ :: _ :: _ :: rest =>
    let scan := parseTuples rest 0 {}
    { expectedUid, totalBytes := bytes.length, expectedAttributeIndex := scan.index,
      headerSeen := true, buffer := scan.rest, attributes := scan.attributes }
  | _ => { expectedUid, totalBytes := bytes.length, buffer := bytes }

theorem after_nil (expectedUid : UInt32) : after expectedUid [] = fresh expectedUid := rfl

theorem consumeTuples_none {r : Reassembler} {rest : List UInt8}
    (h : (r.consumeTuples rest).1 = .ok none) :
    (r.consumeTuples rest).2 =
      let scan := parseTuples rest r.expectedAttributeIndex r.attributes
      { r with
        expectedAttributeIndex := scan.index, attributes := scan.attributes,
        buffer := scan.rest } := by
  rw [consumeTuples_result] at h
  obtain ⟨error, index⟩ := Scan.result_none h
  unfold consumeTuples
  simp only [error]
  rw [if_neg index]

theorem result_header {expectedUid : UInt32} {command b0 b1 b2 b3 : UInt8} {rest : List UInt8}
    (h : result expectedUid (command :: b0 :: b1 :: b2 :: b3 :: rest) = .ok none) :
    command = 0 ∧ readUint32LittleEndian b0 b1 b2 b3 = expectedUid.toNat ∧
      (parseTuples rest 0 {}).result = .ok none := by
  unfold result at h
  split at h
  · next eq =>
    simp only [List.cons.injEq] at eq
    obtain ⟨rfl, rfl, rfl, rfl, rfl, rfl⟩ := eq
    split at h
    · cases h
    · next zero =>
      split at h
      · cases h
      · next uid => exact ⟨not_not.mp zero, not_not.mp uid, h⟩
  · next short => exact absurd rfl (short _ _ _ _ _ _)

/-- The bookkeeping at the head of a call that is not refused. -/
theorem consume_eq {r : Reassembler} {fragment : List UInt8} (live : r.terminal = false)
    (nonempty : fragment ≠ [])
    (size : r.totalBytes + fragment.length ≤ kMaximumDataSourceResponseSize) :
    r.consume fragment =
      let r := { r with
        totalBytes := r.totalBytes + fragment.length, buffer := r.buffer ++ fragment }
      if r.headerSeen then r.consumeTuples r.buffer
      else
        match r.buffer with
        | command :: b0 :: b1 :: b2 :: b3 :: rest =>
          if command ≠ 0 then r.fail .command
          else if readUint32LittleEndian b0 b1 b2 b3 ≠ r.expectedUid.toNat then
            r.fail .responseUid
          else { r with headerSeen := true }.consumeTuples rest
        | _ => (.ok none, r) := by
  unfold consume
  rw [if_neg (by simp [live]), if_neg nonempty]
  exact if_neg (by omega)

/-- The header is still missing: the call parses the bytes seen so far anew. -/
theorem consume_header (expectedUid : UInt32) (bytes fragment : List UInt8)
    (nonempty : fragment ≠ [])
    (size : (bytes ++ fragment).length ≤ kMaximumDataSourceResponseSize) :
    let r : Reassembler := { expectedUid, totalBytes := bytes.length, buffer := bytes }
    (r.consume fragment).1 = result expectedUid (bytes ++ fragment) ∧
      (result expectedUid (bytes ++ fragment) = .ok none →
        (r.consume fragment).2 = after expectedUid (bytes ++ fragment)) := by
  intro r
  have total : r.totalBytes + fragment.length = (bytes ++ fragment).length :=
    List.length_append.symm
  rw [consume_eq rfl nonempty (by rw [total]; exact size)]
  simp only [total, r, Bool.false_eq_true, if_false]
  generalize bytes ++ fragment = whole
  split
  · next command b0 b1 b2 b3 rest =>
    unfold result
    simp only
    split
    · exact ⟨rfl, nofun⟩
    · split
      · exact ⟨rfl, nofun⟩
      · rw [consumeTuples_result]
        refine ⟨rfl, fun incomplete => ?_⟩
        rw [consumeTuples_none (by rw [consumeTuples_result]; exact incomplete)]
        rfl
  · next short =>
    unfold result after
    split
    · exact absurd rfl (short _ _ _ _ _ _)
    · exact ⟨rfl, fun _ => rfl⟩

/-- One call after an incomplete prefix does what a single call on the prefix
and the fragment together does. -/
theorem consume_after {expectedUid : UInt32} {b : List UInt8} (fragment : List UInt8)
    (incomplete : result expectedUid b = .ok none) (nonempty : fragment ≠ [])
    (size : (b ++ fragment).length ≤ kMaximumDataSourceResponseSize) :
    ((after expectedUid b).consume fragment).1 = result expectedUid (b ++ fragment) ∧
      (result expectedUid (b ++ fragment) = .ok none →
        ((after expectedUid b).consume fragment).2 =
          after expectedUid (b ++ fragment)) := by
  unfold after
  split
  · next command b0 b1 b2 b3 rest =>
    obtain ⟨rfl, uid, scanned⟩ := result_header incomplete
    obtain ⟨error, -⟩ := Scan.result_none scanned
    have resumed := parseTuples_append rest fragment 0 {}
    simp only [error, Option.isSome_none, Bool.false_eq_true, if_false] at resumed
    have one : result expectedUid (0 :: b0 :: b1 :: b2 :: b3 :: rest ++ fragment) =
        (parseTuples (rest ++ fragment) 0 {}).result := by
      simp [result, uid]
    rw [one, resumed, consume_eq rfl nonempty (by rw [List.length_append] at size; exact size)]
    simp only [if_true]
    rw [consumeTuples_result]
    refine ⟨rfl, fun none => ?_⟩
    rw [consumeTuples_none (by rw [consumeTuples_result]; exact none)]
    simp only [List.cons_append, List.length_cons, List.length_append, resumed]
    congr 1
    omega
  · exact consume_header expectedUid b fragment nonempty size

/-- A single call on a whole response. -/
theorem consume_fresh (expectedUid : UInt32) (bytes : List UInt8) (nonempty : bytes ≠ [])
    (size : bytes.length ≤ kMaximumDataSourceResponseSize) :
    ((fresh expectedUid).consume bytes).1 = result expectedUid bytes :=
  (consume_after (b := []) bytes rfl nonempty size).1

end Reassembler

-- ---------------------------------------------------------------------------
-- The bounds
-- ---------------------------------------------------------------------------

theorem parseTuples_rest_length (rest : List UInt8) (index : Nat) (attributes : AttributeSet) :
    (parseTuples rest index attributes).rest.length ≤ rest.length := by
  induction rest, index, attributes using parseTuples.induct with
  | case1 index attributes h attributeId low high value other requested =>
    simp only [parseTuples_order h attributes other requested, Nat.le_refl]
  | case2 index attributes h attributeId low high value length other unknown cut =>
    simp only [parseTuples_skip_cut h attributes other unknown cut, Nat.le_refl]
  | case3 index attributes h attributeId low high value length other unknown whole ih =>
    rw [parseTuples_skip h attributes other unknown whole]
    exact Nat.le_trans ih (by simp only [List.length_drop, List.length_cons]; omega)
  | case4 index attributes h attributeId low high value length expected large =>
    simp only [parseTuples_size h attributes (not_not.mp expected) large, Nat.le_refl]
  | case5 index attributes h attributeId low high value length expected small cut =>
    simp only [parseTuples_cut h attributes (not_not.mp expected) small cut, Nat.le_refl]
  | case6 index attributes h attributeId low high value length expected small whole malformed =>
    simp only [parseTuples_utf8 h attributes (not_not.mp expected) small whole malformed, Nat.le_refl]
  | case7 index attributes h attributeId low high value length expected small whole valid ih =>
    rw [parseTuples_accept h attributes (not_not.mp expected) small whole (not_not.mp valid)]
    exact Nat.le_trans ih (by simp only [List.length_drop, List.length_cons]; omega)
  | case8 rest index attributes h short =>
    simp only [parseTuples_stop h attributes short, Nat.le_refl]
  | case9 rest index attributes done =>
    simp only [parseTuples_done done rest, Nat.le_refl]

namespace Reassembler

/-- The buffer never holds more than the bytes accepted so far, which stay within
the limit on a response. -/
structure Bounded (r : Reassembler) : Prop where
  buffer : r.buffer.length ≤ r.totalBytes
  total : r.totalBytes ≤ kMaximumDataSourceResponseSize

theorem Bounded.fresh (expectedUid : UInt32) : (fresh expectedUid).Bounded :=
  ⟨Nat.le_refl 0, Nat.zero_le _⟩

theorem Bounded.fail {r : Reassembler} (b : r.Bounded) (error : Error) :
    (r.fail error).2.Bounded :=
  ⟨b.buffer, b.total⟩

theorem Bounded.consumeTuples {r : Reassembler} (b : r.Bounded) {rest : List UInt8}
    (h : rest.length ≤ r.buffer.length) : (r.consumeTuples rest).2.Bounded := by
  have cursor := parseTuples_rest_length rest r.expectedAttributeIndex r.attributes
  unfold Reassembler.consumeTuples
  generalize parseTuples rest r.expectedAttributeIndex r.attributes = scan at cursor
  simp only
  split
  · exact ⟨b.buffer, b.total⟩
  · split
    · split
      · exact ⟨b.buffer, b.total⟩
      · exact ⟨b.buffer, b.total⟩
    · exact ⟨Nat.le_trans (Nat.le_trans cursor h) b.buffer, b.total⟩

theorem Bounded.consume {r : Reassembler} (b : r.Bounded) (fragment : List UInt8) :
    (r.consume fragment).2.Bounded := by
  by_cases live : r.terminal = false
  · by_cases empty : fragment = []
    · simpa [Reassembler.consume, live, empty] using b
    by_cases size : r.totalBytes + fragment.length ≤ kMaximumDataSourceResponseSize
    · rw [consume_eq live empty size]
      have grown : Bounded { r with
          totalBytes := r.totalBytes + fragment.length, buffer := r.buffer ++ fragment } :=
        ⟨by rw [List.length_append]; exact Nat.add_le_add_right b.buffer _, size⟩
      simp only
      split
      · exact grown.consumeTuples (Nat.le_refl _)
      · split
        · next eq =>
          split
          · exact grown.fail _
          · split
            · exact grown.fail _
            · have header : Bounded { r with
                  totalBytes := r.totalBytes + fragment.length,
                  buffer := r.buffer ++ fragment, headerSeen := true } :=
                ⟨grown.buffer, grown.total⟩
              exact header.consumeTuples (by rw [eq]; simp only [List.length_cons]; omega)
        · exact grown
    · have large : fragment.length > kMaximumDataSourceResponseSize - r.totalBytes := by
        have := b.total; omega
      simp only [Reassembler.consume, live, empty, large, if_true, if_false, Bool.false_eq_true]
      exact b.fail _
  · simpa [Reassembler.consume, live] using b

-- ---------------------------------------------------------------------------
-- Any way of cutting
-- ---------------------------------------------------------------------------

theorem feed_bounded {r : Reassembler} (b : r.Bounded) (fragments : List (List UInt8)) :
    ∀ p ∈ r.feed fragments, p.2.Bounded := by
  induction fragments generalizing r with
  | nil => exact fun _ h => nomatch h
  | cons fragment fragments ih =>
    have next := b.consume fragment
    unfold feed
    split
    · next r' eq =>
      rw [eq] at next
      intro p h
      rcases List.mem_cons.mp h with rfl | h
      · exact next
      · exact ih next p h
    · intro p h
      rw [List.mem_singleton] at h
      exact h ▸ next

/-- The results of `n` fragments agree with the result of a single call: what
comes before the last is incomplete, and an error shows as soon as it can. A
response followed by unrequested data may complete before the data arrives. -/
def Agrees (single : Result) (results : List Result) (n : Nat) : Prop :=
  match single with
  | .ok none => results = List.replicate n (.ok none)
  | .ok (some attributes) =>
    results = List.replicate (n - 1) (.ok none) ++ [.ok (some attributes)]
  | .error error =>
    error ≠ .trailing → ∃ k < n, results = List.replicate k (.ok none) ++ [.error error]

theorem Agrees.cons {single : Result} {results : List Result} {n : Nat} (positive : 0 < n)
    (h : Agrees single results n) : Agrees single (.ok none :: results) (n + 1) := by
  match single with
  | .ok none =>
    simp only [Agrees] at h ⊢
    rw [h, List.replicate_succ]
  | .ok (some attributes) =>
    simp only [Agrees] at h ⊢
    obtain ⟨m, rfl⟩ : ∃ m, n = m + 1 := ⟨n - 1, by omega⟩
    simp only [Nat.add_sub_cancel] at h ⊢
    rw [h, List.replicate_succ, List.cons_append]
  | .error error =>
    intro named
    obtain ⟨k, lt, eq⟩ := h named
    exact ⟨k + 1, by omega, by rw [eq, List.replicate_succ, List.cons_append]⟩

theorem Agrees.last (single : Result) : Agrees single [single] 1 := by
  match single with
  | .ok none => rfl
  | .ok (some attributes) => rfl
  | .error error => exact fun _ => ⟨0, by decide, rfl⟩

theorem flatten_ne_nil {fragments : List (List UInt8)} (some : fragments ≠ [])
    (nonempty : ∀ f ∈ fragments, f ≠ []) : fragments.flatten ≠ [] := by
  cases fragments with
  | nil => exact absurd rfl some
  | cons f fs =>
    intro h
    rw [List.flatten_cons, List.append_eq_nil_iff] at h
    exact nonempty f List.mem_cons_self h.1

/-- The induction is on the fragments left; the bytes before them are incomplete. -/
theorem feed_after {expectedUid : UInt32} {b : List UInt8} {fragments : List (List UInt8)}
    (incomplete : result expectedUid b = .ok none) (some : fragments ≠ [])
    (nonempty : ∀ f ∈ fragments, f ≠ [])
    (size : (b ++ fragments.flatten).length ≤ kMaximumDataSourceResponseSize) :
    Agrees (result expectedUid (b ++ fragments.flatten))
      (((after expectedUid b).feed fragments).map Prod.fst) fragments.length := by
  induction fragments generalizing b with
  | nil => exact absurd rfl some
  | cons fragment fragments ih =>
    have here : fragment ≠ [] := nonempty fragment List.mem_cons_self
    have later : ∀ f ∈ fragments, f ≠ [] := fun f h => nonempty f (List.mem_cons_of_mem _ h)
    rw [List.flatten_cons, ← List.append_assoc] at size ⊢
    have size' : (b ++ fragment).length ≤ kMaximumDataSourceResponseSize := by
      rw [List.length_append] at size; omega
    obtain ⟨value, next⟩ := consume_after fragment incomplete here size'
    by_cases more : result expectedUid (b ++ fragment) = .ok none
    · have step : (after expectedUid b).consume fragment =
          (.ok none, after expectedUid (b ++ fragment)) :=
        Prod.ext (value.trans more) (next more)
      simp only [feed, step, List.map_cons, List.length_cons]
      by_cases last : fragments = []
      · subst last
        simp only [List.flatten_nil, List.append_nil, more]
        rfl
      · exact (ih more last later size).cons (List.length_pos_iff.mpr last)
    · have step : ((after expectedUid b).feed (fragment :: fragments)).map Prod.fst =
          [result expectedUid (b ++ fragment)] := by
        rw [← value]
        rw [← value] at more
        unfold feed
        split
        · next eq => rw [eq] at more; exact absurd rfl more
        · rfl
      rw [step]
      by_cases last : fragments = []
      · subst last
        simp only [List.flatten_nil, List.append_nil, List.length_singleton]
        exact Agrees.last _
      · rw [result_append fragments.flatten (flatten_ne_nil last later) more]
        cases result expectedUid (b ++ fragment) with
        | error error => exact fun _ => ⟨0, Nat.zero_lt_succ _, rfl⟩
        | ok attributes => exact fun named => absurd rfl named

theorem fragmentation (expectedUid : UInt32) (bytes : List UInt8)
    (fragments : List (List UInt8)) (cut : fragments.flatten = bytes)
    (nonempty : ∀ f ∈ fragments, f ≠ []) (some : 1 ≤ bytes.length)
    (size : bytes.length ≤ kMaximumDataSourceResponseSize) :
    Agrees ((fresh expectedUid).consume bytes).1
        (((fresh expectedUid).feed fragments).map Prod.fst) fragments.length ∧
      ∀ p ∈ (fresh expectedUid).feed fragments,
        p.2.buffer.length ≤ kMaximumDataSourceResponseSize ∧
          p.2.totalBytes ≤ kMaximumDataSourceResponseSize := by
  have present : fragments ≠ [] := by
    rintro rfl
    rw [← cut] at some
    cases some
  have given : bytes ≠ [] := List.length_pos_iff.mp some
  constructor
  · rw [consume_fresh expectedUid bytes given size, ← cut]
    exact feed_after (b := []) rfl present nonempty (by simpa [cut] using size)
  · intro p h
    obtain ⟨buffer, total⟩ := feed_bounded (Bounded.fresh expectedUid) fragments p h
    exact ⟨Nat.le_trans buffer total, total⟩

/-- A response with two attributes of some length. -/
def whole : List UInt8 := [0, 7, 0, 0, 0, 0, 1, 0, 65, 1, 2, 0, 66, 67, 2, 0, 0, 3, 0, 0, 5, 0, 0]

/-- It comes in three pieces, one of them within a tuple. -/
def pieces : List (List UInt8) := [whole.take 7, (whole.drop 7).take 6, whole.drop 13]

theorem fragmentation_whole :
    Agrees ((fresh 7).consume whole).1 (((fresh 7).feed pieces).map Prod.fst) 3 ∧
      ∀ p ∈ (fresh 7).feed pieces,
        p.2.buffer.length ≤ kMaximumDataSourceResponseSize ∧
          p.2.totalBytes ≤ kMaximumDataSourceResponseSize :=
  fragmentation 7 whole pieces rfl (by decide) (by decide) (by decide)

end Reassembler

end Dmn.Ancs
