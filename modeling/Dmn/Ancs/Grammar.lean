import Dmn.Ancs.Fragments

/-!
# The grammar of a response

A response is a header and tuples: the requested attributes in order, between
them tuples of unknown attributes. The reassembler completes on exactly these
strings; it asks for more where everything it can check of the string so far
follows the grammar. It checks a header, a tuple header or a value once it is
there as a whole.
-/

namespace Dmn.Ancs

-- ---------------------------------------------------------------------------
-- The grammar
-- ---------------------------------------------------------------------------

def littleEndian16 (n : Nat) : List UInt8 := [UInt8.ofNat n, UInt8.ofNat (n / 256)]

def littleEndian32 (n : Nat) : List UInt8 :=
  [UInt8.ofNat n, UInt8.ofNat (n / 256), UInt8.ofNat (n / 65536), UInt8.ofNat (n / 16777216)]

def tupleHeader (attributeId : UInt8) (length : Nat) : List UInt8 :=
  attributeId :: littleEndian16 length

/-- The attributes asked for, each with the limit on its length. -/
def requests : List (UInt8 × Nat) := kRequestedAttributeIds.zip kMaximumAttributeSizes

def header (uid : UInt32) : List UInt8 := 0 :: littleEndian32 uid.toNat

/-- The tuples of the attributes `asked` in order, with unknown ones before each. -/
inductive Tuples : List (UInt8 × Nat) → List UInt8 → List (List UInt8) → Prop
  | done : Tuples [] [] []
  | unknown {request asked attributeId value bytes values} :
    attributeId ∉ kRequestedAttributeIds → value.length < 2 ^ 16 →
    Tuples (request :: asked) bytes values →
    Tuples (request :: asked) (tupleHeader attributeId value.length ++ value ++ bytes) values
  | requested {attributeId limit asked value bytes values} :
    value.length ≤ limit → WellFormedUtf8 value → Tuples asked bytes values →
    Tuples ((attributeId, limit) :: asked)
      (tupleHeader attributeId value.length ++ value ++ bytes) (value :: values)

/-- Whole tuples as the grammar has them, then a last one that is cut off. -/
inductive Partial : List (UInt8 × Nat) → List UInt8 → Prop
  | short {request asked} {bytes : List UInt8} :
    bytes.length < 3 → Partial (request :: asked) bytes
  | cutUnknown {request asked attributeId length} {value : List UInt8} :
    attributeId ∉ kRequestedAttributeIds → length < 2 ^ 16 → value.length < length →
    Partial (request :: asked) (tupleHeader attributeId length ++ value)
  | cutRequested {attributeId limit asked length} {value : List UInt8} :
    length ≤ limit → value.length < length →
    Partial ((attributeId, limit) :: asked) (tupleHeader attributeId length ++ value)
  | unknown {request asked attributeId value bytes} :
    attributeId ∉ kRequestedAttributeIds → value.length < 2 ^ 16 →
    Partial (request :: asked) bytes →
    Partial (request :: asked) (tupleHeader attributeId value.length ++ value ++ bytes)
  | requested {attributeId limit asked value bytes} :
    value.length ≤ limit → WellFormedUtf8 value → Partial asked bytes →
    Partial ((attributeId, limit) :: asked)
      (tupleHeader attributeId value.length ++ value ++ bytes)

def Response (uid : UInt32) (bytes : List UInt8) (values : List (List UInt8)) : Prop :=
  ∃ body, bytes = header uid ++ body ∧ Tuples requests body values

/-- A proper prefix of a response, of whatever total size. -/
def Extendable (uid : UInt32) (bytes : List UInt8) : Prop :=
  ∃ more values, more ≠ [] ∧ Response uid (bytes ++ more) values

/-- Less than a header, or the header and part of the tuples. -/
def Incomplete (uid : UInt32) (bytes : List UInt8) : Prop :=
  bytes.length < kDataSourceHeaderSize ∨ ∃ body, bytes = header uid ++ body ∧ Partial requests body

-- ---------------------------------------------------------------------------
-- Little-endian numbers
-- ---------------------------------------------------------------------------

theorem readUint16_eq (low high : UInt8) :
    readUint16LittleEndian low high = low.toNat + high.toNat * 256 := by
  have bound := low.toNat_lt
  rw [readUint16LittleEndian, Nat.or_comm,
    ← Nat.shiftLeft_add_eq_or_of_lt (i := 8) (by omega), Nat.shiftLeft_eq]
  omega

theorem readUint32_eq (b0 b1 b2 b3 : UInt8) :
    readUint32LittleEndian b0 b1 b2 b3 =
      b0.toNat + b1.toNat * 256 + b2.toNat * 65536 + b3.toNat * 16777216 := by
  have h0 := b0.toNat_lt
  have h1 := b1.toNat_lt
  have h2 := b2.toNat_lt
  have e1 : b0.toNat ||| b1.toNat <<< 8 = b0.toNat + b1.toNat * 256 := by
    rw [Nat.or_comm, ← Nat.shiftLeft_add_eq_or_of_lt (i := 8) (by omega), Nat.shiftLeft_eq]
    omega
  have e2 : b0.toNat + b1.toNat * 256 ||| b2.toNat <<< 16 =
      b0.toNat + b1.toNat * 256 + b2.toNat * 65536 := by
    rw [Nat.or_comm, ← Nat.shiftLeft_add_eq_or_of_lt (i := 16) (by omega), Nat.shiftLeft_eq]
    omega
  rw [readUint32LittleEndian, e1, e2, Nat.or_comm,
    ← Nat.shiftLeft_add_eq_or_of_lt (i := 24) (by omega), Nat.shiftLeft_eq]
  omega

theorem toNat_ofNat_mod (n : Nat) : (UInt8.ofNat n).toNat = n % 256 := UInt8.toNat_ofNat'

theorem readUint16_littleEndian {n : Nat} (h : n < 2 ^ 16) :
    readUint16LittleEndian (UInt8.ofNat n) (UInt8.ofNat (n / 256)) = n := by
  rw [readUint16_eq, toNat_ofNat_mod, toNat_ofNat_mod]
  omega

theorem littleEndian_readUint16 (low high : UInt8) :
    littleEndian16 (readUint16LittleEndian low high) = [low, high] := by
  have h0 := low.toNat_lt
  have h1 := high.toNat_lt
  rw [readUint16_eq, littleEndian16]
  congr 1
  · apply UInt8.toNat.inj; rw [toNat_ofNat_mod]; omega
  · congr 1
    apply UInt8.toNat.inj; rw [toNat_ofNat_mod]; omega

theorem readUint32_iff (b0 b1 b2 b3 : UInt8) (uid : UInt32) :
    readUint32LittleEndian b0 b1 b2 b3 = uid.toNat ↔
      [b0, b1, b2, b3] = littleEndian32 uid.toNat := by
  have h0 := b0.toNat_lt
  have h1 := b1.toNat_lt
  have h2 := b2.toNat_lt
  have h3 := b3.toNat_lt
  have bound := uid.toNat_lt
  simp only [readUint32_eq, littleEndian32, List.cons.injEq, and_true, ← UInt8.toNat_inj,
    toNat_ofNat_mod]
  omega

theorem readUint16_lt (low high : UInt8) : readUint16LittleEndian low high < 2 ^ 16 := by
  have h0 := low.toNat_lt
  have h1 := high.toNat_lt
  rw [readUint16_eq]
  omega

-- ---------------------------------------------------------------------------
-- The loop on what the grammar derives
-- ---------------------------------------------------------------------------

theorem requests_drop {index : Nat} (h : index < kRequestedAttributeIds.length) :
    requests.drop index =
      (kRequestedAttributeIds[index], kMaximumAttributeSizes[index]) ::
        requests.drop (index + 1) := by
  rw [List.drop_eq_getElem_cons (show index < requests.length from h)]
  simp only [requests, List.getElem_zip]
  rfl

theorem requests_drop_nil {index : Nat} (h : ¬ index < kRequestedAttributeIds.length) :
    requests.drop index = [] :=
  List.drop_eq_nil_iff.mpr (Nat.not_lt.mp h)

theorem requests_drop_cons {index : Nat} {request : UInt8 × Nat} {asked : List (UInt8 × Nat)}
    (h : request :: asked = requests.drop index) : index < kRequestedAttributeIds.length := by
  by_contra last
  rw [requests_drop_nil last] at h
  cases h

/-- The limits are within the 16 bits of a length. -/
theorem kMaximumAttributeSizes_lt {index : Nat} (h : index < kMaximumAttributeSizes.length) :
    kMaximumAttributeSizes[index] < 2 ^ 16 := by
  have all : ∀ size ∈ kMaximumAttributeSizes, size < 2 ^ 16 := by decide
  exact all _ (List.getElem_mem h)

theorem requested_mem {index : Nat} (h : index < kRequestedAttributeIds.length) :
    kRequestedAttributeIds[index] ∈ kRequestedAttributeIds :=
  List.getElem_mem h

theorem isRequestedAttribute_iff (attributeId : UInt8) :
    isRequestedAttribute attributeId = true ↔ attributeId ∈ kRequestedAttributeIds :=
  decide_eq_true_iff

section Derived

variable {index : Nat} (h : index < kRequestedAttributeIds.length) {attributeId : UInt8}
  (attributes : AttributeSet)
include h

theorem parseTuples_unknown (unknown : attributeId ∉ kRequestedAttributeIds)
    {value : List UInt8} (small : value.length < 2 ^ 16) (bytes : List UInt8) :
    parseTuples (tupleHeader attributeId value.length ++ value ++ bytes) index attributes =
      parseTuples bytes index attributes := by
  have length := readUint16_littleEndian small
  rw [List.append_assoc]
  show parseTuples (_ :: _ :: _ :: (value ++ bytes)) index attributes = _
  refine (parseTuples_skip h attributes ?_ ?_ ?_).trans ?_
  · rintro rfl; exact unknown (requested_mem h)
  · rwa [isRequestedAttribute_iff]
  · rw [length, List.length_append]; omega
  · rw [length, List.drop_left]

theorem parseTuples_cutUnknown (unknown : attributeId ∉ kRequestedAttributeIds)
    {value : List UInt8} {length : Nat} (small : length < 2 ^ 16) (cut : value.length < length) :
    parseTuples (tupleHeader attributeId length ++ value) index attributes =
      { rest := tupleHeader attributeId length ++ value, index, attributes } := by
  show parseTuples (_ :: _ :: _ :: value) index attributes = _
  refine parseTuples_skip_cut h attributes ?_ ?_ ?_
  · rintro rfl; exact unknown (requested_mem h)
  · rwa [isRequestedAttribute_iff]
  · rwa [readUint16_littleEndian small]

theorem parseTuples_requested {value : List UInt8}
    (small : value.length ≤ kMaximumAttributeSizes[index]) (valid : WellFormedUtf8 value)
    (bytes : List UInt8) :
    parseTuples (tupleHeader kRequestedAttributeIds[index] value.length ++ value ++ bytes) index
        attributes =
      parseTuples bytes (index + 1) (assignAttribute attributes index value) := by
  have length := readUint16_littleEndian (Nat.lt_of_le_of_lt small (kMaximumAttributeSizes_lt h))
  rw [List.append_assoc]
  show parseTuples (_ :: _ :: _ :: (value ++ bytes)) index attributes = _
  refine (parseTuples_accept h attributes rfl ?_ ?_ ?_).trans ?_
  · rw [length]; exact Nat.not_lt.mpr small
  · rw [length, List.length_append]; omega
  · rw [length, List.take_left]; exact valid.valid
  · rw [length, List.drop_left, List.take_left]

theorem parseTuples_cutRequested {value : List UInt8} {length : Nat}
    (small : length ≤ kMaximumAttributeSizes[index]) (cut : value.length < length) :
    parseTuples (tupleHeader kRequestedAttributeIds[index] length ++ value) index attributes =
      { rest := tupleHeader kRequestedAttributeIds[index] length ++ value, index,
        attributes } := by
  have same := readUint16_littleEndian (Nat.lt_of_le_of_lt small (kMaximumAttributeSizes_lt h))
  show parseTuples (_ :: _ :: _ :: value) index attributes = _
  refine parseTuples_cut h attributes rfl ?_ ?_
  · rw [same]; exact Nat.not_lt.mpr small
  · rwa [same]

end Derived

/-- The members set from `index` on. -/
def assignAll (attributes : AttributeSet) (index : Nat) : List (List UInt8) → AttributeSet
  | [] => attributes
  | value :: values => assignAll (assignAttribute attributes index value) (index + 1) values

theorem Tuples.result {asked : List (UInt8 × Nat)} {bytes : List UInt8}
    {values : List (List UInt8)} (t : Tuples asked bytes values) {index : Nat}
    (eq : asked = requests.drop index) (within : index ≤ kRequestedAttributeIds.length)
    (attributes : AttributeSet) :
    (parseTuples bytes index attributes).result =
      .ok (some (assignAll attributes index values)) := by
  induction t generalizing index attributes with
  | done =>
    have last : requests.length ≤ index := List.drop_eq_nil_iff.mp eq.symm
    have done : index = kRequestedAttributeIds.length := Nat.le_antisymm within last
    rw [parseTuples_done (by omega)]
    simp [Scan.result, done, assignAll]
  | unknown unknown small _ ih =>
    rw [parseTuples_unknown (requests_drop_cons eq) attributes unknown small]
    exact ih eq within attributes
  | requested small valid _ ih =>
    have h := requests_drop_cons eq
    rw [requests_drop h, List.cons.injEq, Prod.mk.injEq] at eq
    obtain ⟨⟨rfl, rfl⟩, rfl⟩ := eq
    rw [parseTuples_requested h attributes small valid]
    exact ih rfl h _

theorem Partial.result {asked : List (UInt8 × Nat)} {bytes : List UInt8}
    (t : Partial asked bytes) {index : Nat} (eq : asked = requests.drop index)
    (attributes : AttributeSet) :
    (parseTuples bytes index attributes).result = .ok none := by
  have stop {rest : List UInt8} {index : Nat} {attributes : AttributeSet}
      (h : index < kRequestedAttributeIds.length) :
      Scan.result { rest, index, attributes } = .ok none := by
    have : index ≠ kRequestedAttributeIds.length := by omega
    simp [Scan.result, this]
  induction t generalizing index attributes with
  | short short =>
    have h := requests_drop_cons eq
    rw [parseTuples_stop h attributes]
    · exact stop h
    · rintro _ _ _ _ rfl
      simp only [List.length_cons] at short
      omega
  | cutUnknown unknown small cut =>
    have h := requests_drop_cons eq
    rw [parseTuples_cutUnknown h attributes unknown small cut]
    exact stop h
  | cutRequested small cut =>
    have h := requests_drop_cons eq
    rw [requests_drop h, List.cons.injEq, Prod.mk.injEq] at eq
    obtain ⟨⟨rfl, rfl⟩, rfl⟩ := eq
    rw [parseTuples_cutRequested h attributes small cut]
    exact stop h
  | unknown unknown small _ ih =>
    rw [parseTuples_unknown (requests_drop_cons eq) attributes unknown small]
    exact ih eq attributes
  | requested small valid _ ih =>
    have h := requests_drop_cons eq
    rw [requests_drop h, List.cons.injEq, Prod.mk.injEq] at eq
    obtain ⟨⟨rfl, rfl⟩, rfl⟩ := eq
    rw [parseTuples_requested h attributes small valid]
    exact ih rfl _

-- ---------------------------------------------------------------------------
-- What the loop has read, as the grammar derives it
-- ---------------------------------------------------------------------------

theorem tupleHeader_read (attributeId low high : UInt8) (value : List UInt8) :
    attributeId :: low :: high :: value =
      tupleHeader attributeId (readUint16LittleEndian low high) ++ value := by
  rw [tupleHeader, littleEndian_readUint16]
  rfl

theorem tuple_read {a low high : UInt8} {value : List UInt8}
    (whole : ¬ readUint16LittleEndian low high > value.length) :
    let length := readUint16LittleEndian low high
    (value.take length).length = length ∧
      a :: low :: high :: value =
        tupleHeader a (value.take length).length ++ value.take length ++
          value.drop length := by
  intro length
  have same : (value.take length).length = length := by
    rw [List.length_take]; omega
  refine ⟨same, ?_⟩
  rw [same, List.append_assoc, List.take_append_drop]
  exact tupleHeader_read a low high value

/-- What a result of the loop says about the bytes. -/
def Derived (index : Nat) (attributes : AttributeSet) (bytes : List UInt8) : Result → Prop
  | .ok (some set) =>
    ∃ values, Tuples (requests.drop index) bytes values ∧ set = assignAll attributes index values
  | .ok none => Partial (requests.drop index) bytes
  | .error _ => True

theorem Derived.unknown {index : Nat} (h : index < kRequestedAttributeIds.length)
    {attributeId : UInt8} {attributes : AttributeSet} {value bytes : List UInt8}
    (unknown : attributeId ∉ kRequestedAttributeIds) (small : value.length < 2 ^ 16)
    {result : Result} (d : Derived index attributes bytes result) :
    Derived index attributes (tupleHeader attributeId value.length ++ value ++ bytes) result := by
  unfold Derived at d ⊢
  rw [requests_drop h] at d ⊢
  match result with
  | .ok (some set) =>
    obtain ⟨values, tuples, rfl⟩ := d
    exact ⟨values, tuples.unknown unknown small, rfl⟩
  | .ok none => exact Partial.unknown unknown small d
  | .error _ => trivial

theorem Derived.requested {index : Nat} (h : index < kRequestedAttributeIds.length)
    {attributes : AttributeSet} {value bytes : List UInt8}
    (small : value.length ≤ kMaximumAttributeSizes[index]) (valid : WellFormedUtf8 value)
    {result : Result}
    (d : Derived (index + 1) (assignAttribute attributes index value) bytes result) :
    Derived index attributes
      (tupleHeader kRequestedAttributeIds[index] value.length ++ value ++ bytes) result := by
  unfold Derived at d ⊢
  rw [requests_drop h]
  match result with
  | .ok (some set) =>
    obtain ⟨values, tuples, rfl⟩ := d
    exact ⟨value :: values, tuples.requested small valid, rfl⟩
  | .ok none => exact Partial.requested small valid d
  | .error _ => trivial

theorem parseTuples_derived (rest : List UInt8) (index : Nat) (attributes : AttributeSet)
    (within : index ≤ kRequestedAttributeIds.length) :
    Derived index attributes rest (parseTuples rest index attributes).result := by
  have stop {rest : List UInt8} {index : Nat} {attributes : AttributeSet}
      (h : index < kRequestedAttributeIds.length) (cut : Partial (requests.drop index) rest) :
      Derived index attributes rest (Scan.result { rest, index, attributes }) := by
    have : index ≠ kRequestedAttributeIds.length := by omega
    simp only [Scan.result, this, if_false]
    exact cut
  induction rest, index, attributes using parseTuples.induct with
  | case1 index attributes h attributeId low high value other requested =>
    rw [parseTuples_order h attributes other requested]
    trivial
  | case2 index attributes h attributeId low high value length other unknown cut =>
    rw [parseTuples_skip_cut h attributes other unknown cut]
    refine stop h ?_
    rw [requests_drop h, tupleHeader_read]
    exact .cutUnknown (by rwa [isRequestedAttribute_iff] at unknown) (readUint16_lt low high) cut
  | case3 index attributes h attributeId low high value length other unknown whole ih =>
    rw [parseTuples_skip h attributes other unknown whole]
    obtain ⟨same, eq⟩ := tuple_read (a := attributeId) whole
    rw [eq]
    exact (ih within).unknown h (by rwa [isRequestedAttribute_iff] at unknown)
      (by rw [same]; exact readUint16_lt low high)
  | case4 index attributes h attributeId low high value length expected large =>
    rw [parseTuples_size h attributes (not_not.mp expected) large]
    trivial
  | case5 index attributes h attributeId low high value length expected small cut =>
    obtain rfl := not_not.mp expected
    rw [parseTuples_cut h attributes rfl small cut]
    refine stop h ?_
    rw [requests_drop h, tupleHeader_read]
    exact .cutRequested (Nat.not_lt.mp small) cut
  | case6 index attributes h attributeId low high value length expected small whole malformed =>
    rw [parseTuples_utf8 h attributes (not_not.mp expected) small whole malformed]
    trivial
  | case7 index attributes h attributeId low high value length expected small whole valid ih =>
    obtain rfl := not_not.mp expected
    rw [parseTuples_accept h attributes rfl small whole (not_not.mp valid)]
    obtain ⟨same, eq⟩ := tuple_read (a := kRequestedAttributeIds[index]) whole
    rw [eq]
    refine (ih h).requested h ?_ ?_
    · rw [same]; exact Nat.not_lt.mp small
    · exact (isValidUtf8_eq_true _).mp (not_not.mp valid)
  | case8 rest index attributes h short =>
    rw [parseTuples_stop h attributes short]
    refine stop h ?_
    rw [requests_drop h]
    refine .short ?_
    rcases rest with _ | ⟨attributeId, _ | ⟨low, _ | ⟨high, value⟩⟩⟩
    · simp
    · simp
    · simp
    · exact absurd rfl (short _ _ _ _)
  | case9 rest index attributes done =>
    rw [parseTuples_done done]
    obtain rfl : index = kRequestedAttributeIds.length := by omega
    cases rest with
    | nil =>
      refine ⟨[], ?_, rfl⟩
      rw [requests_drop_nil done]
      exact .done
    | cons byte rest => trivial

-- ---------------------------------------------------------------------------
-- Whole responses
-- ---------------------------------------------------------------------------

theorem result_body (uid : UInt32) (body : List UInt8) :
    result uid (header uid ++ body) = (parseTuples body 0 {}).result := by
  have eq := (readUint32_iff _ _ _ _ uid).mpr rfl
  simp only [header, littleEndian32, List.cons_append, List.nil_append, result]
  rw [if_neg (by simp), if_neg (not_not.mpr eq)]

theorem result_ok {uid : UInt32} {bytes : List UInt8} {set : Option AttributeSet}
    (h : result uid bytes = .ok set) :
    (bytes.length < kDataSourceHeaderSize ∧ set = none) ∨
      ∃ body, bytes = header uid ++ body ∧ (parseTuples body 0 {}).result = .ok set := by
  unfold result at h
  split at h
  · next command b0 b1 b2 b3 rest =>
    split at h
    · cases h
    · next zero =>
      split at h
      · cases h
      · next same =>
        right
        refine ⟨rest, ?_, h⟩
        rw [not_not] at zero same
        rw [zero, header, ← (readUint32_iff b0 b1 b2 b3 uid).mp same]
        rfl
  · next short =>
    left
    refine ⟨?_, by cases h; rfl⟩
    match bytes, short with
    | [], _ | [_], _ | [_, _], _ | [_, _, _], _ | [_, _, _, _], _ => simp [kDataSourceHeaderSize]
    | command :: b0 :: b1 :: b2 :: b3 :: rest, short => exact absurd rfl (short _ _ _ _ _ _)

theorem Tuples.values_length {asked : List (UInt8 × Nat)} {bytes : List UInt8}
    {values : List (List UInt8)} (t : Tuples asked bytes values) :
    values.length = asked.length := by
  induction t with
  | done => rfl
  | unknown _ _ _ ih => exact ih
  | requested _ _ _ ih => rw [List.length_cons, List.length_cons, ih]

theorem Response.values {uid : UInt32} {bytes : List UInt8} {values : List (List UInt8)}
    (r : Response uid bytes values) : ∃ a t s m d, values = [a, t, s, m, d] := by
  obtain ⟨body, -, tuples⟩ := r
  match values, tuples.values_length with
  | [a, t, s, m, d], _ => exact ⟨a, t, s, m, d, rfl⟩

/-- The members in the order they are asked for. -/
def AttributeSet.ofValues (values : List (List UInt8)) : AttributeSet := assignAll {} 0 values

theorem result_completed (uid : UInt32) (bytes : List UInt8) (set : AttributeSet) :
    result uid bytes = .ok (some set) ↔
      ∃ values, Response uid bytes values ∧ set = .ofValues values := by
  constructor
  · intro h
    rcases result_ok h with ⟨-, none⟩ | ⟨body, rfl, scanned⟩
    · cases none
    · have derived := parseTuples_derived body 0 {} (Nat.zero_le _)
      rw [scanned] at derived
      obtain ⟨values, tuples, rfl⟩ := derived
      exact ⟨values, ⟨body, rfl, tuples⟩, rfl⟩
  · rintro ⟨values, ⟨body, rfl, tuples⟩, rfl⟩
    rw [result_body]
    exact tuples.result rfl (Nat.zero_le _) {}

theorem result_incomplete (uid : UInt32) (bytes : List UInt8) :
    result uid bytes = .ok none ↔ Incomplete uid bytes := by
  constructor
  · intro h
    rcases result_ok h with ⟨short, -⟩ | ⟨body, rfl, scanned⟩
    · exact Or.inl short
    · have derived := parseTuples_derived body 0 {} (Nat.zero_le _)
      rw [scanned] at derived
      exact Or.inr ⟨body, rfl, derived⟩
  · rintro (short | ⟨body, rfl, cut⟩)
    · match bytes, short with
      | [], _ | [_], _ | [_, _], _ | [_, _, _], _ | [_, _, _, _], _ => rfl
      | _ :: _ :: _ :: _ :: _ :: rest, short =>
        simp only [List.length_cons, kDataSourceHeaderSize] at short
        omega
    · rw [result_body]
      exact cut.result rfl {}

/-- A string that can still become a response is not refused. -/
theorem result_extendable {uid : UInt32} {bytes : List UInt8} (h : Extendable uid bytes) :
    result uid bytes = .ok none := by
  obtain ⟨more, values, nonempty, response⟩ := h
  by_contra terminal
  have whole := (result_completed uid (bytes ++ more) _).mpr ⟨values, response, rfl⟩
  rw [result_append more nonempty terminal] at whole
  split at whole <;> cases whole

namespace Reassembler

/-- The first byte already rules out a response, and is not looked at yet. -/
theorem notExtendable :
    ¬ ∀ (uid : UInt32) (bytes : List UInt8), 1 ≤ bytes.length →
      bytes.length ≤ kMaximumDataSourceResponseSize →
      (((fresh uid).consume bytes).1 = .ok none ↔ Extendable uid bytes) := by
  intro all
  obtain ⟨more, values, -, body, eq, -⟩ := (all 0 [1] (by decide) (by decide)).mp rfl
  cases eq

theorem grammar (uid : UInt32) (bytes : List UInt8) (some' : 1 ≤ bytes.length)
    (size : bytes.length ≤ kMaximumDataSourceResponseSize) :
    (∀ set, ((fresh uid).consume bytes).1 = .ok (some set) ↔
      ∃ appIdentifier title subtitle message date,
        Response uid bytes [appIdentifier, title, subtitle, message, date] ∧
        set = { appIdentifier, title, subtitle, message, date }) ∧
    (((fresh uid).consume bytes).1 = .ok none ↔ Incomplete uid bytes) ∧
    (Extendable uid bytes → ((fresh uid).consume bytes).1 = .ok none) := by
  rw [consume_fresh uid bytes (List.length_pos_iff.mp some') size]
  refine ⟨fun set => ?_, result_incomplete uid bytes, result_extendable⟩
  rw [result_completed]
  constructor
  · rintro ⟨values, response, rfl⟩
    obtain ⟨a, t, s, m, d, rfl⟩ := response.values
    exact ⟨a, t, s, m, d, response, rfl⟩
  · rintro ⟨a, t, s, m, d, response, rfl⟩
    exact ⟨_, response, rfl⟩

theorem grammar_whole :
    ((fresh 7).consume whole).1 =
      .ok (some { appIdentifier := some [65], title := some [66, 67], subtitle := some []
                  message := some [], date := some [] }) :=
  ((grammar 7 whole (by decide) (by decide)).1 _).mpr ⟨[65], [66, 67], [], [], [], ⟨whole.drop 5, rfl,
    @Tuples.requested _ _ _ _ (whole.drop 9) _ (by decide) ⟨['A'], rfl⟩ <|
    @Tuples.requested _ _ _ _ (whole.drop 14) _ (by decide) ⟨['B', 'C'], rfl⟩ <|
    @Tuples.requested _ _ _ _ (whole.drop 17) _ (by decide) ⟨[], rfl⟩ <|
    @Tuples.requested _ _ _ _ (whole.drop 20) _ (by decide) ⟨[], rfl⟩ <|
    @Tuples.requested _ _ _ _ [] _ (by decide) ⟨[], rfl⟩ .done⟩, rfl⟩

end Reassembler

end Dmn.Ancs
