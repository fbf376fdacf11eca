import Dmn.Json.Strings
import Mathlib.Data.List.Induction

/-!
# What the parser accepts

`parse` returns a value exactly when the text is one of the grammar, with the numbers that `strtod`
converts in place of those of JSON.
-/

namespace Dmn.Json

-- ---------------------------------------------------------------------------
-- Members
-- ---------------------------------------------------------------------------

theorem set_map {keys : List (List UInt8)} (h : keys.Nodup) (f : List UInt8 → JsonValue)
    (key : List UInt8) (value : JsonValue) :
    set (keys.map fun k => (k, f k)) key value =
      (if key ∈ keys then keys else keys ++ [key]).map fun k => (k, if k = key then value else f k) := by
  induction keys with
  | nil =>
    rw [if_neg List.not_mem_nil]
    show [(key, value)] = [(key, if key = key then value else f key)]
    rw [if_pos rfl]
  | cons k keys ih =>
    obtain ⟨hk, hkeys⟩ := List.nodup_cons.mp h
    rw [List.map_cons, set]
    by_cases hkey : k = key
    · rw [if_pos hkey, if_pos (by rw [hkey]; exact List.mem_cons_self), List.map_cons, if_pos hkey]
      refine congrArg _ (List.map_congr_left fun other hother => ?_)
      rw [if_neg fun heq => hk (by rw [hkey, ← heq]; exact hother)]
    · rw [if_neg hkey, ih hkeys]
      by_cases hmem : key ∈ keys
      · rw [if_pos hmem, if_pos (List.mem_cons_of_mem _ hmem), List.map_cons, if_neg hkey]
      · rw [if_neg hmem, if_neg fun hin => (List.mem_cons.mp hin).elim (fun heq => hkey heq.symm) hmem,
          List.cons_append,
          List.map_cons, if_neg hkey]

theorem latest_concat (ms : List (List UInt8 × JsonValue)) (key : List UInt8) (value : JsonValue)
    (k : List UInt8) :
    latest (ms ++ [(key, value)]) k = if k = key then value else latest ms k := by
  unfold latest
  rw [List.reverse_append, List.reverse_singleton, List.singleton_append, List.lookup_cons]
  by_cases hk : k = key
  · rw [if_pos hk, beq_iff_eq.mpr hk]
    rfl
  · rw [if_neg hk, beq_false_of_ne hk]

theorem merged_concat (ms : List (List UInt8 × JsonValue)) (key : List UInt8) (value : JsonValue) :
    merged (ms ++ [(key, value)]) = set (merged ms) key value := by
  have hnodup : (ms.map Prod.fst).reverse.dedup.reverse.Nodup := List.nodup_reverse.mpr (List.nodup_dedup _)
  unfold merged
  rw [set_map hnodup, List.map_append, List.reverse_append]
  simp only [latest_concat]
  refine congrArg _ ?_
  show (key :: (ms.map Prod.fst).reverse).dedup.reverse = _
  by_cases hkey : key ∈ (ms.map Prod.fst).reverse
  · rw [List.dedup_cons_of_mem hkey, if_pos (List.mem_reverse.mpr (List.mem_dedup.mpr hkey))]
  · rw [List.dedup_cons_of_notMem hkey, List.reverse_cons,
      if_neg fun hin => hkey (List.mem_dedup.mp (List.mem_reverse.mp hin))]

/-- The members put one after the other. -/
def puts (object ms : List (List UInt8 × JsonValue)) : List (List UInt8 × JsonValue) :=
  ms.foldl (fun object member => set object member.1 member.2) object

theorem puts_nil (ms : List (List UInt8 × JsonValue)) : puts [] ms = merged ms := by
  unfold puts
  induction ms using List.reverseRecOn with
  | nil => rfl
  | append_singleton ms member ih =>
    rw [List.foldl_append, ih]
    exact (merged_concat ms member.1 member.2).symm

-- ---------------------------------------------------------------------------
-- Where a text starts
-- ---------------------------------------------------------------------------

/-- A number does not start as anything else does. -/
theorem number_head {byte : UInt8} (h : isNumberByte byte = true) :
    isSpace byte = false ∧ byte ≠ ascii ']' ∧ byte ≠ ascii '}' ∧
      byte ≠ ascii '{' ∧ byte ≠ ascii '[' ∧ byte ≠ ascii quote ∧
      byte ≠ ascii 't' ∧ byte ≠ ascii 'f' ∧ byte ≠ ascii 'n' := by
  simp only [isNumberByte, Bool.or_eq_true, Option.isSome_iff_exists, decide_eq_true_eq] at h
  obtain ((((⟨d, hd⟩ | rfl) | rfl) | rfl) | rfl) | rfl := h
  · rw [digit_eq_some.mp hd]
    clear hd
    revert d
    decide
  all_goals decide

theorem follow_cons {byte : UInt8} (h : isNumberByte byte = false) (rest : List UInt8) :
    Follow (byte :: rest) :=
  fun _ hfirst => Option.some.inj hfirst ▸ h

theorem follow_encode {w : List Char} (hw : Space w) {rest : List UInt8} (h : Follow rest) :
    Follow (encode w ++ rest) := by
  cases w with
  | nil => exact h
  | cons c w =>
    obtain ⟨hascii, hspace⟩ := hw.head
    intro byte hbyte
    rw [encode_ascii hascii] at hbyte
    obtain rfl := Option.some.inj hbyte
    refine eq_false_of_ne_true fun hnumber => ?_
    rw [(number_head hnumber).1] at hspace
    cases hspace

theorem Numeral.Decimal.head {n : Numeral} (h : n.Decimal) :
    ∃ byte tail, encode n.text = byte :: tail ∧ isNumberByte byte = true := by
  cases htext : encode n.text with
  | nil => exact absurd htext h.ne_nil
  | cons byte tail => exact ⟨byte, tail, rfl, isNumberByte_text n byte (htext ▸ List.mem_cons_self)⟩

theorem Text.head {d : ℕ} {s : List Char} {v : JsonValue} (h : Text Numeral.Decimal d s v) :
    ∃ byte tail, encode s = byte :: tail ∧ isSpace byte = false ∧ byte ≠ ascii ']' := by
  cases h with
  | nullText | trueText | falseText =>
    rw [encode_ascii (by decide)]
    exact ⟨_, _, rfl, by decide, by decide⟩
  | number hn hq =>
    obtain ⟨byte, tail, htext, hnumber⟩ := hn.head
    obtain ⟨hspace, hclose, -⟩ := number_head hnumber
    exact ⟨byte, tail, htext, hspace, hclose⟩
  | string | emptyArray | array | emptyObject | object =>
    rw [encode_ascii (by decide)]
    exact ⟨_, _, rfl, by decide, by decide⟩

theorem Items.head {d : ℕ} {s : List Char} {vs : List JsonValue} (h : Items Numeral.Decimal d s vs) :
    ∃ w byte tail, Space w ∧ encode s = encode w ++ byte :: tail ∧ isSpace byte = false ∧ byte ≠ ascii ']' := by
  cases h with
  | @last _ w s w' v hw hv hw' =>
    obtain ⟨byte, tail, htext, hhead⟩ := hv.head
    refine ⟨w, byte, tail ++ encode w', hw, ?_, hhead⟩
    rw [encode_append, encode_append, htext, List.append_assoc]
    rfl
  | @more _ w s w' r v vs hw hv hw' h =>
    obtain ⟨byte, tail, htext, hhead⟩ := hv.head
    refine ⟨w, byte, tail ++ (encode w' ++ encode (',' :: r)), hw, ?_, hhead⟩
    rw [encode_append, encode_append, encode_append, htext, List.append_assoc, List.append_assoc]
    rfl

theorem Members.head {d : ℕ} {s : List Char} {ms : List (List UInt8 × JsonValue)}
    (h : Members Numeral.Decimal d s ms) :
    ∃ w tail, Space w ∧ encode s = encode w ++ ascii quote :: tail := by
  cases h with
  | last hw | more hw =>
    rw [encode_append, encode_ascii (by decide)]
    exact ⟨_, _, hw, rfl⟩

theorem Items.length_le {Number : Numeral → Prop} {d : ℕ} {s : List Char} {vs : List JsonValue}
    (h : Items Number d s vs) :
    vs.length ≤ (encode s).length + 1 :=
  match h with
  | .last _ _ _ => Nat.succ_le_succ (Nat.zero_le _)
  | .more _ _ _ h => by
    have hrest := h.length_le
    rw [encode_append, encode_ascii (by decide), List.length_append, List.length_cons, List.length_cons]
    omega

theorem Members.length_le {Number : Numeral → Prop} {d : ℕ} {s : List Char} {ms : List (List UInt8 × JsonValue)}
    (h : Members Number d s ms) : ms.length ≤ (encode s).length + 1 :=
  match h with
  | .last _ _ _ _ _ _ => Nat.succ_le_succ (Nat.zero_le _)
  | .more _ _ _ _ _ _ h => by
    have hrest := h.length_le
    rw [encode_append, encode_ascii (by decide), encode_append, encode_ascii (by decide), encode_append,
      encode_ascii (by decide), encode_append, encode_ascii (by decide)]
    simp only [List.length_append, List.length_cons]
    omega

-- ---------------------------------------------------------------------------
-- Texts are accepted
-- ---------------------------------------------------------------------------

theorem parseValue_skipSpace (levels : ℕ) (m : List UInt8) : parseValue levels (skipSpace m) =
    parseValue levels m := by
  cases levels with
  | zero => rfl
  | succ levels =>
    unfold parseValue
    rw [skipSpace_idem]

theorem parseValue_space {w : List Char} (hw : Space w) (levels : ℕ) (m : List UInt8) :
    parseValue levels (encode w ++ m) = parseValue levels m := by
  rw [← parseValue_skipSpace levels (encode w ++ m), skipSpace_encode hw, parseValue_skipSpace]

theorem parseItems_skipSpace (levels bytes : ℕ) (array : List JsonValue) (m : List UInt8) :
    parseItems (parseValue levels) bytes array (skipSpace m) = parseItems (parseValue levels) bytes
      array m := by
  cases bytes with
  | zero => rfl
  | succ bytes =>
    unfold parseItems
    rw [parseValue_skipSpace]

theorem parseMembers_skipSpace (levels bytes : ℕ) (object : List (List UInt8 × JsonValue)) (m : List UInt8) :
    parseMembers (parseValue levels) bytes object (skipSpace m) = parseMembers (parseValue levels)
      bytes object m := by
  cases bytes with
  | zero => rfl
  | succ bytes =>
    unfold parseMembers
    rw [skipSpace_idem]

/-- The first byte decides. -/
theorem parseValue_cons {levels : ℕ} {byte : UInt8} (h : isSpace byte = false) (m : List UInt8) :
    parseValue (levels + 1) (byte :: m) =
      if byte = ascii '{' then parseObject (parseValue levels) (byte :: m)
      else if byte = ascii '[' then parseArray (parseValue levels) (byte :: m)
      else if byte = ascii quote then (parseString (byte :: m)).map fun (text, m) => (.string text, m)
      else match literal ['t', 'r', 'u', 'e'] (byte :: m) with
        | some m => some (.bool true, m)
        | none =>
          match literal ['f', 'a', 'l', 's', 'e'] (byte :: m) with
          | some m => some (.bool false, m)
          | none =>
            match literal ['n', 'u', 'l', 'l'] (byte :: m) with
            | some m => some (.null, m)
            | none => parseNumber (byte :: m) := by
  have hvalue := parseValue.eq_2 (byte :: m) levels
  rw [skipSpace_cons h] at hvalue
  exact hvalue

theorem parseString_encode {s cs : List Char} (h : Chars s cs) (rest : List UInt8) :
    parseString (ascii quote :: (encode s ++ ascii quote :: rest)) = some (encode cs, rest) := by
  unfold parseString
  have hconsume : consume (ascii quote) (ascii quote :: (encode s ++ ascii quote :: rest)) = (true,
    encode s ++ ascii quote :: rest) :=
    consume_encode (show Space [] from nofun) (by decide) _
  rw [hconsume]
  exact parseChars_encode h [] rest

theorem parseValue_number {levels : ℕ} {n : Numeral} {q : ℚ} {rest : List UInt8} (hn : n.Decimal)
    (hq : toDouble n.value = some q) (hrest : Follow rest) :
    parseValue (levels + 1) (encode n.text ++ rest) = some (.number (some q), rest) := by
  obtain ⟨byte, tail, htext, hnumber⟩ := hn.head
  obtain ⟨hspace, -, -, hobject, harray, hstring, ht, hf, hnull⟩ := number_head hnumber
  have hparse := parseNumber_encode hn hq hrest
  rw [htext, List.cons_append] at hparse ⊢
  rw [parseValue_cons hspace, if_neg hobject, if_neg harray, if_neg hstring, literal_head ht,
    literal_head hf, literal_head hnull]
  exact hparse

theorem parseArray_items {levels : ℕ} {inner rest : List UInt8} {vs : List JsonValue} {w : List Char}
    {byte : UInt8}
    {tail : List UInt8} (hw : Space w) (hinner : inner = encode w ++ byte :: tail)
    (hspace : isSpace byte = false)
    (hclose : byte ≠ ascii ']')
    (hitems : parseItems (parseValue levels) (ascii '[' :: inner).length [] inner =
    some (vs, ascii ']' :: rest)) :
    parseArray (parseValue levels) (ascii '[' :: inner) = some (.array vs, rest) := by
  have hopen : (consume (ascii '[') (ascii '[' :: inner)).2 = inner := rfl
  have hnot : consume (ascii ']') inner = (false, skipSpace inner) := by
    rw [hinner, consume_ne hw hspace hclose, skipSpace_encode hw, skipSpace_cons hspace]
  have hend : consume (ascii ']') (ascii ']' :: rest) = (true, rest) := rfl
  unfold parseArray
  rw [hopen, hnot]
  dsimp only
  rw [parseItems_skipSpace, hitems]
  dsimp only
  rw [hend]

theorem parseObject_members {levels : ℕ} {inner rest : List UInt8} {object : List (List UInt8 × JsonValue)}
    {w : List Char}
    {tail : List UInt8} (hw : Space w) (hinner : inner = encode w ++ ascii quote :: tail)
    (hmembers : parseMembers (parseValue levels) (ascii '{' :: inner).length [] inner =
    some (object, ascii '}' :: rest)) :
    parseObject (parseValue levels) (ascii '{' :: inner) = some (.object object, rest) := by
  have hopen : (consume (ascii '{') (ascii '{' :: inner)).2 = inner := rfl
  have hnot : consume (ascii '}') inner = (false, skipSpace inner) := by
    rw [hinner, consume_ne hw (by decide) (by decide), skipSpace_encode hw, skipSpace_cons (by decide)]
  have hend : consume (ascii '}') (ascii '}' :: rest) = (true, rest) := rfl
  unfold parseObject
  rw [hopen, hnot]
  dsimp only
  rw [parseMembers_skipSpace, hmembers]
  dsimp only
  rw [hend]

/-- One turn of the loop, the last one. -/
theorem parseMembers_last {levels bytes : ℕ} {w : List Char} {m m₁ m₂ m₃ rest key : List UInt8} {v : JsonValue}
    (hw : Space w) (hkey : parseString (ascii quote :: m) = some (key, m₁))
    (hcolon : consume (ascii ':') m₁ = (true, m₂))
    (hvalue : parseValue levels m₂ = some (v, m₃)) (hend : consume (ascii ',') m₃ = (false, rest))
    (object : List (List UInt8 × JsonValue)) :
    parseMembers (parseValue levels) (bytes + 1) object (encode w ++ ascii quote :: m) =
      some (set object key v, rest) := by
  rw [parseMembers, skipSpace_encode hw, skipSpace_cons (by decide), hkey]
  dsimp only
  rw [hcolon]
  dsimp only
  rw [hvalue]
  dsimp only
  rw [hend]

/-- One turn, with more to come. -/
theorem parseMembers_more {levels bytes : ℕ} {w : List Char} {m m₁ m₂ m₃ rest key : List UInt8} {v : JsonValue}
    (hw : Space w) (hkey : parseString (ascii quote :: m) = some (key, m₁))
    (hcolon : consume (ascii ':') m₁ = (true, m₂))
    (hvalue : parseValue levels m₂ = some (v, m₃)) (hmore : consume (ascii ',') m₃ = (true, rest))
    (object : List (List UInt8 × JsonValue)) :
    parseMembers (parseValue levels) (bytes + 1) object (encode w ++ ascii quote :: m) =
      parseMembers (parseValue levels) bytes (set object key v) rest := by
  rw [parseMembers, skipSpace_encode hw, skipSpace_cons (by decide), hkey]
  dsimp only
  rw [hcolon]
  dsimp only
  rw [hvalue]
  dsimp only
  rw [hmore]

mutual

theorem Text.parses {d : ℕ} {s : List Char} {v : JsonValue} (h : Text Numeral.Decimal d s v) {rest : List UInt8}
    (hrest : Follow rest) : parseValue (d + 1) (encode s ++ rest) = some (v, rest) :=
  match h with
  | .nullText => by
    show parseValue (d + 1) (ascii 'n' :: (['u', 'l', 'l'].map ascii ++ rest)) = _
    rw [parseValue_cons (by decide), if_neg (by decide), if_neg (by decide), if_neg (by decide),
      literal_head (by decide),
      literal_head (by decide)]
    dsimp only
    rw [show ascii 'n' :: (['u', 'l', 'l'].map ascii ++ rest) = ['n', 'u', 'l', 'l'].map ascii ++
      rest from rfl, literal_map]
  | .trueText => by
    show parseValue (d + 1) (ascii 't' :: (['r', 'u', 'e'].map ascii ++ rest)) = _
    rw [parseValue_cons (by decide), if_neg (by decide), if_neg (by decide), if_neg (by decide),
      show ascii 't' :: (['r', 'u', 'e'].map ascii ++ rest) = ['t', 'r', 'u', 'e'].map ascii ++
        rest from rfl, literal_map]
  | .falseText => by
    show parseValue (d + 1) (ascii 'f' :: (['a', 'l', 's', 'e'].map ascii ++ rest)) = _
    rw [parseValue_cons (by decide), if_neg (by decide), if_neg (by decide), if_neg (by decide),
      literal_head (by decide)]
    dsimp only
    rw [show ascii 'f' :: (['a', 'l', 's', 'e'].map ascii ++ rest) = ['f', 'a', 'l', 's',
      'e'].map ascii ++ rest from rfl,
      literal_map]
  | .number hn hq => parseValue_number hn hq hrest
  | @Text.string _ _ s cs hs => by
    have htext : encode (quote :: (s ++ [quote])) ++ rest = ascii quote :: (encode s ++
      ascii quote :: rest) := by
      rw [encode_ascii (by decide), encode_append, List.cons_append, List.append_assoc]
      rfl
    rw [htext, parseValue_cons (by decide), if_neg (by decide), if_neg (by decide), if_pos rfl,
      parseString_encode hs]
    rfl
  | @Text.emptyArray _ _ w hw => by
    have htext : encode ('[' :: (w ++ [']'])) ++ rest = ascii '[' :: (encode w ++ ascii ']' :: rest) := by
      rw [encode_ascii (by decide), encode_append, List.cons_append, List.append_assoc]
      rfl
    have hopen : (consume (ascii '[') (ascii '[' :: (encode w ++ ascii ']' :: rest))).2 = encode w ++
      ascii ']' :: rest := rfl
    rw [htext, parseValue_cons (by decide), if_neg (by decide), if_pos rfl]
    unfold parseArray
    rw [hopen, consume_encode hw (by decide)]
  | @Text.array _ _ s vs hs => by
    have htext : encode ('[' :: (s ++ [']'])) ++ rest = ascii '[' :: (encode s ++ ascii ']' :: rest) := by
      rw [encode_ascii (by decide), encode_append, List.cons_append, List.append_assoc]
      rfl
    obtain ⟨w, byte, tail, hw, hhead, hspace, hclose⟩ := hs.head
    have hlength : vs.length ≤ (ascii '[' :: (encode s ++ ascii ']' :: rest)).length := by
      have hle := hs.length_le
      rw [List.length_cons, List.length_append]
      omega
    have hitems := hs.parses hlength [] rest
    rw [htext, parseValue_cons (by decide), if_neg (by decide), if_pos rfl]
    exact parseArray_items hw (by rw [hhead, List.append_assoc]; rfl) hspace hclose hitems
  | @Text.emptyObject _ _ w hw => by
    have htext : encode ('{' :: (w ++ ['}'])) ++ rest = ascii '{' :: (encode w ++ ascii '}' :: rest) := by
      rw [encode_ascii (by decide), encode_append, List.cons_append, List.append_assoc]
      rfl
    have hopen : (consume (ascii '{') (ascii '{' :: (encode w ++ ascii '}' :: rest))).2 = encode w ++
      ascii '}' :: rest := rfl
    rw [htext, parseValue_cons (by decide), if_pos rfl]
    unfold parseObject
    rw [hopen, consume_encode hw (by decide)]
  | @Text.object _ _ s ms hs => by
    have htext : encode ('{' :: (s ++ ['}'])) ++ rest = ascii '{' :: (encode s ++ ascii '}' :: rest) := by
      rw [encode_ascii (by decide), encode_append, List.cons_append, List.append_assoc]
      rfl
    obtain ⟨w, tail, hw, hhead⟩ := hs.head
    have hlength : ms.length ≤ (ascii '{' :: (encode s ++ ascii '}' :: rest)).length := by
      have hle := hs.length_le
      rw [List.length_cons, List.length_append]
      omega
    have hmembers := hs.parses hlength [] rest
    rw [puts_nil] at hmembers
    rw [htext, parseValue_cons (by decide), if_pos rfl]
    exact parseObject_members hw (by rw [hhead, List.append_assoc]; rfl) hmembers

theorem Items.parses {d : ℕ} {s : List Char} {vs : List JsonValue} (h : Items Numeral.Decimal d s vs)
    {bytes : ℕ}
    (hbytes : vs.length ≤ bytes) (array : List JsonValue) (rest : List UInt8) :
    parseItems (parseValue (d + 1)) bytes array (encode s ++ ascii ']' :: rest) = some (array ++ vs,
      ascii ']' :: rest) :=
  match h with
  | @Items.last _ _ w s w' v hw hv hw' => by
    obtain ⟨bytes, rfl⟩ := Nat.exists_eq_succ_of_ne_zero (Nat.ne_of_gt hbytes)
    have hvalue := hv.parses (follow_encode hw' (follow_cons (show isNumberByte (ascii ']') = false by
      decide) rest))
    rw [encode_append, encode_append, List.append_assoc, List.append_assoc, parseItems,
      parseValue_space hw, hvalue]
    dsimp only
    rw [consume_ne hw' (by decide) (by decide)]
  | @Items.more _ _ w s w' r v vs hw hv hw' hvs => by
    obtain ⟨bytes, rfl⟩ := Nat.exists_eq_succ_of_ne_zero (Nat.ne_of_gt (Nat.lt_of_lt_of_le
      (Nat.succ_pos vs.length) hbytes))
    have hvalue := hv.parses (follow_encode hw'
      (follow_cons (show isNumberByte (ascii ',') = false by decide) (encode r ++ ascii ']' :: rest)))
    rw [encode_append, encode_append, encode_append, encode_ascii (by decide), List.append_assoc,
      List.append_assoc,
      List.append_assoc, List.cons_append, parseItems, parseValue_space hw, hvalue]
    dsimp only
    rw [consume_encode hw' (by decide)]
    dsimp only
    rw [hvs.parses (Nat.le_of_succ_le_succ hbytes), List.append_assoc]
    rfl

theorem Members.parses {d : ℕ} {s : List Char} {ms : List (List UInt8 × JsonValue)}
    (h : Members Numeral.Decimal d s ms)
    {bytes : ℕ} (hbytes : ms.length ≤ bytes) (object : List (List UInt8 × JsonValue)) (rest : List UInt8) :
    parseMembers (parseValue (d + 1)) bytes object (encode s ++ ascii '}' :: rest) = some (puts object ms,
      ascii '}' :: rest) :=
  match h with
  | @Members.last _ _ w k w₁ w₂ s w₃ key v hw hk hw₁ hw₂ hv hw₃ => by
    obtain ⟨bytes, rfl⟩ := Nat.exists_eq_succ_of_ne_zero (Nat.ne_of_gt hbytes)
    have hvalue := hv.parses (follow_encode hw₃ (follow_cons (show isNumberByte (ascii '}') = false by
      decide) rest))
    have htext : encode (w ++ quote :: (k ++ quote :: (w₁ ++ ':' :: (w₂ ++ s ++ w₃)))) ++ ascii '}' :: rest =
        encode w ++ ascii quote :: (encode k ++ ascii quote :: (encode w₁ ++ ascii ':' :: (encode w₂ ++
          (encode s ++ (encode w₃ ++ ascii '}' :: rest))))) := by
      simp only [encode_append, encode_ascii (show quote.toNat < 128 by decide),
        encode_ascii (show ':'.toNat < 128 by decide),
        List.append_assoc, List.cons_append]
    rw [htext]
    exact parseMembers_last hw (parseString_encode hk _) (consume_encode hw₁ (by decide) _)
      ((parseValue_space hw₂ _ _).trans hvalue) (consume_ne hw₃ (by decide) (by decide) _) object
  | @Members.more _ _ w k w₁ w₂ s w₃ key r v ms hw hk hw₁ hw₂ hv hw₃ hms => by
    obtain ⟨bytes, rfl⟩ := Nat.exists_eq_succ_of_ne_zero (Nat.ne_of_gt (Nat.lt_of_lt_of_le
      (Nat.succ_pos ms.length) hbytes))
    have hvalue := hv.parses (follow_encode hw₃
      (follow_cons (show isNumberByte (ascii ',') = false by decide) (encode r ++ ascii '}' :: rest)))
    have htext : encode (w ++ quote :: (k ++ quote :: (w₁ ++ ':' :: (w₂ ++ s ++ w₃ ++ ',' :: r)))) ++
      ascii '}' :: rest =
        encode w ++ ascii quote :: (encode k ++ ascii quote :: (encode w₁ ++ ascii ':' :: (encode w₂ ++
          (encode s ++ (encode w₃ ++ ascii ',' :: (encode r ++ ascii '}' :: rest)))))) := by
      simp only [encode_append, encode_ascii (show quote.toNat < 128 by decide),
        encode_ascii (show ':'.toNat < 128 by decide),
        encode_ascii (show ','.toNat < 128 by decide), List.append_assoc, List.cons_append]
    rw [htext]
    exact (parseMembers_more hw (parseString_encode hk _) (consume_encode hw₁ (by decide) _)
      ((parseValue_space hw₂ _ _).trans hvalue) (consume_encode hw₃ (by decide) _) object).trans
        (hms.parses (Nat.le_of_succ_le_succ hbytes) _ rest)

end

-- ---------------------------------------------------------------------------
-- What is accepted is a text
-- ---------------------------------------------------------------------------

/-- What `parseValue` takes is space and then a text. -/
def Reads (levels : ℕ) : Prop :=
  ∀ {m v rest}, parseValue levels m = some (v, rest) →
    ∃ d w s, levels = d + 1 ∧ Space w ∧ Text Numeral.Decimal d s v ∧ m = encode w ++ (encode s ++ rest)

theorem consume_stopped {expected : UInt8} {m rest : List UInt8} (hm : skipSpace m = m)
    (h : consume expected m = (true, rest)) : m = expected :: rest := by
  unfold consume at h
  rw [hm] at h
  cases m with
  | nil => cases h
  | cons byte m =>
    dsimp only at h
    split at h
    · rename_i heq
      rw [heq, (Prod.mk.inj h).2]
    · cases h

theorem Items.pad {d : ℕ} {w s : List Char} {vs : List JsonValue} (hw : Space w)
    (h : Items Numeral.Decimal d s vs) :
    Items Numeral.Decimal d (w ++ s) vs := by
  have hboth {w' : List Char} (hw' : Space w') : Space (w ++ w') := fun c hc =>
    (List.mem_append.mp hc).elim (hw c) (hw' c)
  cases h with
  | last hw' hv hw'' =>
    rw [← List.append_assoc, ← List.append_assoc]
    exact .last (hboth hw') hv hw''
  | more hw' hv hw'' h =>
    rw [← List.append_assoc, ← List.append_assoc, ← List.append_assoc]
    exact .more (hboth hw') hv hw'' h

theorem Members.pad {d : ℕ} {w s : List Char} {ms : List (List UInt8 × JsonValue)} (hw : Space w)
    (h : Members Numeral.Decimal d s ms) : Members Numeral.Decimal d (w ++ s) ms := by
  have hboth {w' : List Char} (hw' : Space w') : Space (w ++ w') := fun c hc =>
    (List.mem_append.mp hc).elim (hw c) (hw' c)
  cases h with
  | last hw' hk hw₁ hw₂ hv hw₃ =>
    rw [← List.append_assoc]
    exact .last (hboth hw') hk hw₁ hw₂ hv hw₃
  | more hw' hk hw₁ hw₂ hv hw₃ h =>
    rw [← List.append_assoc]
    exact .more (hboth hw') hk hw₁ hw₂ hv hw₃ h

theorem parseItems_some {levels : ℕ} (hreads : Reads levels) {bytes : ℕ} {array vs : List JsonValue}
    {m rest : List UInt8}
    (h : parseItems (parseValue levels) bytes array m = some (vs, rest)) :
    ∃ d s vs', levels = d + 1 ∧ Items Numeral.Decimal d s vs' ∧ vs = array ++ vs' ∧ m = encode s ++ rest ∧
      skipSpace rest = rest := by
  induction bytes generalizing array m with
  | zero => cases h
  | succ bytes ih =>
    rw [parseItems] at h
    cases hvalue : parseValue levels m with
    | none =>
      rw [hvalue] at h
      cases h
    | some read =>
      obtain ⟨v, m₁⟩ := read
      obtain ⟨d, w, s, hd, hw, hv, hm⟩ := hreads hvalue
      rw [hvalue] at h
      dsimp only at h
      cases hmore : consume (ascii ',') m₁ with
      | mk more m₂ =>
        rw [hmore] at h
        cases more with
        | true =>
          obtain ⟨w', hw', hm₁⟩ := consume_true hmore
          obtain ⟨d', r, vs', hd', hr, hvs, hm₂, hrest⟩ := ih h
          obtain rfl : d' = d := Nat.succ_inj.mp (hd'.symm.trans hd)
          refine ⟨d', w ++ s ++ w' ++ ',' :: r, v :: vs', hd, .more hw hv hw' hr, ?_, ?_, hrest⟩
          · rw [hvs, List.append_assoc]
            rfl
          · rw [hm, hm₁, hm₂]
            simp only [encode_append, encode_ascii (show ','.toNat < 128 by decide), List.append_assoc,
              List.cons_append]
        | false =>
          obtain ⟨rfl, rfl⟩ := Prod.mk.inj (Option.some.inj h)
          obtain ⟨w', hw', hm₁⟩ := skipSpace_split m₁
          refine ⟨d, w ++ s ++ w', [v], hd, .last hw hv hw', rfl, ?_, ?_⟩
          · rw [hm, encode_append, encode_append, List.append_assoc, List.append_assoc,
              consume_false hmore, ← hm₁]
          · rw [consume_false hmore, skipSpace_idem]

theorem parseString_some {m text rest : List UInt8} (h : parseString m = some (text, rest)) :
    ∃ w s cs, Space w ∧ Chars s cs ∧ text = encode cs ∧ m = encode w ++ ascii quote :: (encode s ++
      ascii quote :: rest) := by
  unfold parseString at h
  split at h
  · cases h
  · rename_i inner hquote
    obtain ⟨w, hw, hm⟩ := consume_true hquote
    obtain ⟨s, cs, hs, hinner, htext⟩ := parseChars_some h
    exact ⟨w, s, cs, hw, hs, htext, by rw [hm, hinner]⟩

theorem parseMembers_some {levels : ℕ} (hreads : Reads levels) {bytes : ℕ}
    {object ms : List (List UInt8 × JsonValue)}
    {m rest : List UInt8} (h : parseMembers (parseValue levels) bytes object m = some (ms, rest)) :
    ∃ d s ms', levels = d + 1 ∧ Members Numeral.Decimal d s ms' ∧ ms = puts object ms' ∧ m = encode s ++ rest ∧
      skipSpace rest = rest := by
  induction bytes generalizing object m with
  | zero => cases h
  | succ bytes ih =>
    rw [parseMembers] at h
    cases hkey : parseString (skipSpace m) with
    | none =>
      rw [hkey] at h
      cases h
    | some read =>
      obtain ⟨key, m₁⟩ := read
      obtain ⟨w₀, k, cs, hw₀, hk, hcs, hskip⟩ := parseString_some hkey
      obtain ⟨w, hw, hm⟩ := skipSpace_split m
      rw [hkey] at h
      dsimp only at h
      cases hcolon : consume (ascii ':') m₁ with
      | mk colon m₂ =>
        rw [hcolon] at h
        cases colon with
        | false => cases h
        | true =>
          obtain ⟨w₁, hw₁, hm₁⟩ := consume_true hcolon
          dsimp only at h
          cases hvalue : parseValue levels m₂ with
          | none =>
            rw [hvalue] at h
            cases h
          | some read =>
            obtain ⟨v, m₃⟩ := read
            obtain ⟨d, w₂, s, hd, hw₂, hv, hm₂⟩ := hreads hvalue
            rw [hvalue] at h
            dsimp only at h
            cases hmore : consume (ascii ',') m₃ with
            | mk more m₄ =>
              rw [hmore] at h
              cases more with
              | true =>
                obtain ⟨w₃, hw₃, hm₃⟩ := consume_true hmore
                obtain ⟨d', r, ms', hd', hr, hms, hm₄, hrest⟩ := ih h
                obtain rfl : d' = d := Nat.succ_inj.mp (hd'.symm.trans hd)
                refine ⟨d', _, (encode cs, v) :: ms', hd, .pad hw (.more hw₀ hk hw₁ hw₂ hv hw₃ hr),
                  ?_, ?_, hrest⟩
                · rw [hms, hcs]
                  rfl
                · rw [hm, hskip, hm₁, hm₂, hm₃, hm₄]
                  simp only [encode_append, encode_ascii (show quote.toNat < 128 by decide),
                    encode_ascii (show ':'.toNat < 128 by decide), encode_ascii (show ','.toNat < 128 by
                      decide),
                    List.append_assoc, List.cons_append]
              | false =>
                obtain ⟨rfl, rfl⟩ := Prod.mk.inj (Option.some.inj h)
                obtain ⟨w₃, hw₃, hm₃⟩ := skipSpace_split m₃
                refine ⟨d, _, [(encode cs, v)], hd, .pad hw (.last hw₀ hk hw₁ hw₂ hv hw₃), ?_, ?_, ?_⟩
                · rw [hcs]
                  rfl
                · rw [hm, hskip, hm₁, hm₂]
                  simp only [encode_append, encode_ascii (show quote.toNat < 128 by decide),
                    encode_ascii (show ':'.toNat < 128 by decide), List.append_assoc, List.cons_append,
                      consume_false hmore,
                    ← hm₃]
                · rw [consume_false hmore, skipSpace_idem]

theorem parseArray_some {levels : ℕ} (hreads : Reads levels) {inner rest : List UInt8} {v : JsonValue}
    (h : parseArray (parseValue levels) (ascii '[' :: inner) = some (v, rest)) :
    ∃ s, Text Numeral.Decimal levels s v ∧ ascii '[' :: inner = encode s ++ rest := by
  have hopen : (consume (ascii '[') (ascii '[' :: inner)).2 = inner := rfl
  unfold parseArray at h
  rw [hopen] at h
  cases hempty : consume (ascii ']') inner with
  | mk closed m =>
    rw [hempty] at h
    cases closed with
    | true =>
      obtain ⟨rfl, rfl⟩ := Prod.mk.inj (Option.some.inj h)
      obtain ⟨w, hw, hinner⟩ := consume_true hempty
      refine ⟨_, .emptyArray hw, ?_⟩
      rw [encode_ascii (by decide), encode_append, List.cons_append, List.append_assoc, hinner]
      rfl
    | false =>
      dsimp only at h
      rw [consume_false hempty, parseItems_skipSpace] at h
      cases hitems : parseItems (parseValue levels) (ascii '[' :: inner).length [] inner with
      | none =>
        rw [hitems] at h
        cases h
      | some read =>
        obtain ⟨vs, m'⟩ := read
        obtain ⟨d, s, vs', rfl, hs, rfl, hinner, hm'⟩ := parseItems_some hreads hitems
        rw [hitems] at h
        dsimp only at h
        cases hend : consume (ascii ']') m' with
        | mk ended m'' =>
          rw [hend] at h
          cases ended with
          | false => cases h
          | true =>
            obtain ⟨rfl, rfl⟩ := Prod.mk.inj (Option.some.inj h)
            refine ⟨_, .array hs, ?_⟩
            rw [encode_ascii (by decide), encode_append, List.cons_append, List.append_assoc, hinner,
              consume_stopped hm' hend]
            rfl

theorem parseObject_some {levels : ℕ} (hreads : Reads levels) {inner rest : List UInt8} {v : JsonValue}
    (h : parseObject (parseValue levels) (ascii '{' :: inner) = some (v, rest)) :
    ∃ s, Text Numeral.Decimal levels s v ∧ ascii '{' :: inner = encode s ++ rest := by
  have hopen : (consume (ascii '{') (ascii '{' :: inner)).2 = inner := rfl
  unfold parseObject at h
  rw [hopen] at h
  cases hempty : consume (ascii '}') inner with
  | mk closed m =>
    rw [hempty] at h
    cases closed with
    | true =>
      obtain ⟨rfl, rfl⟩ := Prod.mk.inj (Option.some.inj h)
      obtain ⟨w, hw, hinner⟩ := consume_true hempty
      refine ⟨_, .emptyObject hw, ?_⟩
      rw [encode_ascii (by decide), encode_append, List.cons_append, List.append_assoc, hinner]
      rfl
    | false =>
      dsimp only at h
      rw [consume_false hempty, parseMembers_skipSpace] at h
      cases hmembers : parseMembers (parseValue levels) (ascii '{' :: inner).length [] inner with
      | none =>
        rw [hmembers] at h
        cases h
      | some read =>
        obtain ⟨ms, m'⟩ := read
        obtain ⟨d, s, ms', rfl, hs, rfl, hinner, hm'⟩ := parseMembers_some hreads hmembers
        rw [hmembers] at h
        dsimp only at h
        cases hend : consume (ascii '}') m' with
        | mk ended m'' =>
          rw [hend] at h
          cases ended with
          | false => cases h
          | true =>
            obtain ⟨rfl, rfl⟩ := Prod.mk.inj (Option.some.inj h)
            rw [puts_nil]
            refine ⟨_, .object hs, ?_⟩
            rw [encode_ascii (by decide), encode_append, List.cons_append, List.append_assoc, hinner,
              consume_stopped hm' hend]
            rfl

theorem unspaced {w : List Char} (hw : Space w) {byte : UInt8} {after m : List UInt8}
    (hbyte : isSpace byte = false)
    (h : byte :: after = encode w ++ m) : w = [] := by
  cases w with
  | nil => rfl
  | cons c w =>
    obtain ⟨hascii, hspace⟩ := hw.head
    rw [encode_ascii hascii] at h
    rw [(List.cons.inj h).1, hspace] at hbyte
    cases hbyte

theorem reads (levels : ℕ) : Reads levels := by
  induction levels with
  | zero => exact fun h => nomatch h
  | succ levels ih =>
    intro m v rest h
    obtain ⟨w, hw, hm⟩ := skipSpace_split m
    rw [← parseValue_skipSpace] at h
    cases hskip : skipSpace m with
    | nil =>
      rw [hskip] at h
      cases h
    | cons byte after =>
      obtain ⟨s, hs, htext⟩ : ∃ s, Text Numeral.Decimal levels s v ∧ byte :: after = encode s ++ rest := by
        rw [hskip, parseValue_cons (skipSpace_head hskip)] at h
        split at h
        · rename_i hbyte
          subst hbyte
          exact parseObject_some ih h
        · split at h
          · rename_i hbyte
            subst hbyte
            exact parseArray_some ih h
          · split at h
            · rename_i hbyte
              obtain ⟨⟨text, rest'⟩, hstring, heq⟩ := Option.map_eq_some_iff.mp h
              obtain ⟨rfl, rfl⟩ := Prod.mk.inj heq
              obtain ⟨w', s, cs, hw', hs, rfl, htext⟩ := parseString_some hstring
              refine ⟨_, .string hs, ?_⟩
              rw [htext, unspaced hw' (skipSpace_head hskip) htext, encode_ascii (by decide),
                encode_append, List.cons_append,
                List.append_assoc]
              rfl
            · split at h
              · rename_i htrue
                obtain ⟨rfl, rfl⟩ := Prod.mk.inj (Option.some.inj h)
                exact ⟨_, .trueText, literal_some htrue⟩
              · split at h
                · rename_i hfalse
                  obtain ⟨rfl, rfl⟩ := Prod.mk.inj (Option.some.inj h)
                  exact ⟨_, .falseText, literal_some hfalse⟩
                · split at h
                  · rename_i hnull
                    obtain ⟨rfl, rfl⟩ := Prod.mk.inj (Option.some.inj h)
                    exact ⟨_, .nullText, literal_some hnull⟩
                  · obtain ⟨n, q, hn, hq, rfl, htext⟩ := parseNumber_some h
                    exact ⟨_, .number hn hq, htext⟩
      exact ⟨levels, w, s, rfl, hw, hs, by rw [← htext, ← hskip]; exact hm⟩

-- ---------------------------------------------------------------------------
-- The loops come to their end
-- ---------------------------------------------------------------------------

/-- The parser accepts what the grammar derives with the numbers of `strtod`, for the value it denotes. -/
theorem parse_iff (text : List UInt8) (v : JsonValue) : parse text = some v ↔
    Denotes Numeral.Decimal text v := by
  unfold parse
  constructor
  · intro h
    split at h
    · cases h
    · rename_i value rest hvalue
      split at h
      · rename_i hend
        obtain rfl := Option.some.inj h
        obtain ⟨d, w, s, hd, hw, hs, htext⟩ := reads _ hvalue
        obtain ⟨w', hw', hrest⟩ := skipSpace_split rest
        rw [hend, List.append_nil] at hrest
        obtain rfl : d = kMaximumDepth := Nat.succ_inj.mp hd.symm
        exact ⟨w, s, w', hw, hs, hw', by rw [htext, hrest, encode_append, encode_append, List.append_assoc]⟩
      · cases h
  · rintro ⟨w, s, w', hw, hs, hw', rfl⟩
    have hvalue := hs.parses (follow_encode hw' (show Follow [] from nofun))
    have hend : skipSpace (encode w') = [] := by
      have hskip := skipSpace_encode hw' []
      rwa [List.append_nil] at hskip
    rw [encode_append, encode_append, List.append_assoc, parseValue_space hw]
    rw [List.append_nil] at hvalue
    rw [hvalue]
    exact if_pos hend

-- ---------------------------------------------------------------------------
-- JSON
-- ---------------------------------------------------------------------------

mutual

theorem Text.mono {P Q : Numeral → Prop} (hPQ : ∀ n, P n → Q n) {d : ℕ} {s : List Char} {v : JsonValue}
    (h : Text P d s v) :
    Text Q d s v :=
  match h with
  | .nullText => .nullText
  | .trueText => .trueText
  | .falseText => .falseText
  | .number hn hq => .number (hPQ _ hn) hq
  | .string hs => .string hs
  | .emptyArray hw => .emptyArray hw
  | .array hs => .array (hs.mono hPQ)
  | .emptyObject hw => .emptyObject hw
  | .object hs => .object (hs.mono hPQ)

theorem Items.mono {P Q : Numeral → Prop} (hPQ : ∀ n, P n → Q n) {d : ℕ} {s : List Char} {vs : List JsonValue}
    (h : Items P d s vs) : Items Q d s vs :=
  match h with
  | .last hw hv hw' => .last hw (hv.mono hPQ) hw'
  | .more hw hv hw' h => .more hw (hv.mono hPQ) hw' (h.mono hPQ)

theorem Members.mono {P Q : Numeral → Prop} (hPQ : ∀ n, P n → Q n) {d : ℕ} {s : List Char}
    {ms : List (List UInt8 × JsonValue)} (h : Members P d s ms) : Members Q d s ms :=
  match h with
  | .last hw hk hw₁ hw₂ hv hw₃ => .last hw hk hw₁ hw₂ (hv.mono hPQ) hw₃
  | .more hw hk hw₁ hw₂ hv hw₃ h => .more hw hk hw₁ hw₂ (hv.mono hPQ) hw₃ (h.mono hPQ)

end

theorem Denotes.mono {P Q : Numeral → Prop} (hPQ : ∀ n, P n → Q n) {text : List UInt8} {v : JsonValue} :
    Denotes P text v → Denotes Q text v := fun ⟨w, s, w', hw, hs, hw', htext⟩ => ⟨w, s, w', hw,
      hs.mono hPQ, hw', htext⟩

/-- The parser returns the value that a JSON text denotes, and nothing for another text. -/
def Exact (text : List UInt8) : Prop := ∀ v, parse text = some v ↔ Denotes Numeral.Plain text v

/-- A text whose only fault is that a number is one of `strtod` and not of JSON. -/
def Lenient (text : List UInt8) : Prop := ∃ v, Denotes Numeral.Decimal text v ∧ ¬ Denotes Numeral.Plain text v

theorem parse_exact (text : List UInt8) : Exact text ↔ ¬ Lenient text := by
  constructor
  · rintro h ⟨v, hdecimal, hplain⟩
    exact hplain ((h v).mp ((parse_iff text v).mpr hdecimal))
  · intro h v
    refine ⟨fun hparse => ?_, fun hplain => (parse_iff text v).mpr (hplain.mono fun _ => Numeral.Plain.decimal)⟩
    by_contra hplain
    exact h ⟨v, (parse_iff text v).mp hparse, hplain⟩

theorem Numeral.Plain.head {n : Numeral} (h : n.Plain) : ∃ byte tail, encode n.text = byte :: tail ∧
    byte ≠ ascii '+' := by
  obtain ⟨sign, whole, fraction, exponent⟩ := n
  match sign with
  | some .plus => exact absurd rfl h.sign
  | some .minus =>
    unfold Numeral.text
    exact ⟨ascii '-', _, rfl, by decide⟩
  | none =>
    cases whole with
    | nil => exact absurd rfl h.whole
    | cons d whole =>
      have htext : encode (Numeral.text ⟨none, d :: whole, fraction, exponent⟩) = _ :=
        encode_ascii (digitChar_lt d) _
      exact ⟨_, _, htext, (unsigned_digit d).1⟩

theorem Text.unsigned {d : ℕ} {s : List Char} {v : JsonValue} (h : Text Numeral.Plain d s v) :
    ∃ byte tail, encode s = byte :: tail ∧ byte ≠ ascii '+' := by
  cases h with
  | number hn hq => exact hn.head
  | nullText | trueText | falseText | string | emptyArray | array | emptyObject | object =>
    rw [encode_ascii (by decide)]
    exact ⟨_, _, rfl, by decide⟩

theorem parse_plus : ¬ ∀ text, Exact text := by
  intro h
  obtain ⟨v, hv⟩ := Option.isSome_iff_exists.mp (show (parse [ascii '+', ascii '1']).isSome = true by
    decide +kernel)
  obtain ⟨w, s, w', hw, hs, hw', htext⟩ := (h _ v).mp hv
  obtain ⟨byte, tail, hhead, hne⟩ := hs.unsigned
  rw [encode_append, encode_append, List.append_assoc] at htext
  rw [unspaced hw (by decide) htext, hhead] at htext
  exact hne (List.cons.inj htext).1.symm

end Dmn.Json
