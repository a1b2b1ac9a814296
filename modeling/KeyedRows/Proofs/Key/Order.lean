/-
# The order of stored keys

Integers come before texts and texts before byte strings, each kind in its own
order (`Before`). The bytes under which keys are stored come in the same order,
compared one by one (`before_iff_toBytes_lt`). They are read as a key exactly if
they are the bytes of that key (`ofBytes_eq_ok_iff`), since a number in a fixed
count of bytes is written in one way only (`bigEndian_ofBigEndian`). Any other
bytes are no key, for one of four reasons (`Malformed`).

Key definitions: `Before`, `Malformed`.
Key theorem: **`bytes_stand_for_keys`**.
-/
import KeyedRows.Proofs.Key.Bytes

namespace KeyedRows

namespace Number

theorem ofBigEndian_cons (b : UInt8) (bytes : List UInt8) :
    ofBigEndian (b :: bytes) = b.toNat * 256 ^ bytes.length + ofBigEndian bytes := by
  rw [ofBigEndian, List.foldl_cons, foldl_bytes, Nat.mul_zero, Nat.zero_add]

theorem ofBigEndian_lt : ∀ bytes : List UInt8, ofBigEndian bytes < 256 ^ bytes.length
  | [] => by simp [ofBigEndian]
  | b :: bytes => by
    have hb : b.toNat + 1 ≤ 256 := b.toNat_lt
    calc ofBigEndian (b :: bytes)
        = b.toNat * 256 ^ bytes.length + ofBigEndian bytes := ofBigEndian_cons b bytes
      _ < b.toNat * 256 ^ bytes.length + 256 ^ bytes.length :=
          Nat.add_lt_add_left (ofBigEndian_lt bytes) _
      _ = (b.toNat + 1) * 256 ^ bytes.length := (Nat.succ_mul ..).symm
      _ ≤ 256 * 256 ^ bytes.length := Nat.mul_le_mul_right _ hb
      _ = 256 ^ (b :: bytes).length := (Nat.pow_succ' ..).symm

/-- Only the lowest bytes of a number are written. -/
theorem bigEndian_mod (count n : ℕ) : bigEndian count (n % 256 ^ count) = bigEndian count n := by
  refine Std.LawfulEqOrd.eq_of_compare ?_
  rw [compare_bigEndian, Nat.mod_mod]
  exact Nat.compare_eq_eq.mpr rfl

/-- **Bytes are written as they were read.** -/
theorem bigEndian_ofBigEndian : ∀ bytes : List UInt8,
    bigEndian bytes.length (ofBigEndian bytes) = bytes
  | [] => rfl
  | b :: bytes => by
    have hlt := ofBigEndian_lt bytes
    have hpos : 0 < 256 ^ bytes.length := Nat.pow_pos (by decide)
    have hhead : ofBigEndian (b :: bytes) / 256 ^ bytes.length = b.toNat := by
      rw [ofBigEndian_cons, Nat.mul_comm, Nat.mul_add_div hpos, Nat.div_eq_of_lt hlt, Nat.add_zero]
    have htail : ofBigEndian (b :: bytes) % 256 ^ bytes.length = ofBigEndian bytes := by
      rw [ofBigEndian_cons, Nat.mul_comm, Nat.mul_add_mod, Nat.mod_eq_of_lt hlt]
    rw [List.length_cons, bigEndian, Nat.pow_eq, hhead, ← bigEndian_mod, htail,
      bigEndian_ofBigEndian bytes, UInt8.ofNat_toNat]

/-- Comparing byte strings finds out which is smaller. -/
theorem compare_list_lt : ∀ {bs cs : List UInt8}, compare bs cs = .lt ↔ bs < cs
  | [], [] => by simp
  | [], _ :: _ => by simp
  | _ :: _, [] => by simp
  | b :: bs, c :: cs => by
    rw [List.compare_cons_cons, Ordering.then_eq_lt, List.cons_lt_cons_iff, compare_list_lt,
      Std.compare_eq_lt, Std.LawfulEqOrd.compare_eq_iff_eq]

end Number

namespace UserKey

open Number Text

/-- One key comes before another: all integers by their value, then all texts by
their bytes, then all byte strings. -/
inductive Before : UserKey → UserKey → Prop where
  | integers {m n : Int64} : m.toInt < n.toInt → Before (int m) (int n)
  | integerText (m : Int64) (t : String) : Before (int m) (text t)
  | integerBytes (m : Int64) (cs : List UInt8) : Before (int m) (bytes cs)
  | texts {s t : String} : Utf8.encode s < Utf8.encode t → Before (text s) (text t)
  | textBytes (s : String) (cs : List UInt8) : Before (text s) (bytes cs)
  | byteStrings {bs cs : List UInt8} : bs < cs → Before (bytes bs) (bytes cs)

/-- Bytes that are those of no key, and why. -/
inductive Malformed : List UInt8 → Prop where
  | empty : Malformed []
  | unknownTag {t : UInt8} (body : List UInt8) : t ≠ 1 → t ≠ 3 → t ≠ 4 → Malformed (t :: body)
  | integerLength {body : List UInt8} : body.length ≠ 8 → Malformed (1 :: body)
  | noText {body : List UInt8} : (∀ s, body ≠ Utf8.encode s) → Malformed (3 :: body)

/-! ### Order -/

theorem compare_eq_lt_iff_before (a b : UserKey) : compare a b = .lt ↔ Before a b := by
  constructor
  · intro h
    cases a with
    | int m =>
      cases b with
      | int n => exact .integers (compare_lt_iff_lt.mp ((compare_int m n).symm.trans h))
      | text t => exact .integerText m t
      | bytes cs => exact .integerBytes m cs
    | text s =>
      cases b with
      | int n => cases h
      | text t => exact .texts (compare_list_lt.mp ((compare_text s t).symm.trans h))
      | bytes cs => exact .textBytes s cs
    | bytes bs =>
      cases b with
      | int n => cases h
      | text t => cases h
      | bytes cs => exact .byteStrings (compare_list_lt.mp ((compare_bytes bs cs).symm.trans h))
  · intro h
    cases h with
    | integers h => exact (compare_int ..).trans (compare_lt_iff_lt.mpr h)
    | texts h => exact (compare_text ..).trans (compare_list_lt.mpr h)
    | byteStrings h => exact (compare_bytes ..).trans (compare_list_lt.mpr h)
    | integerText | integerBytes | textBytes => rfl

/-- **The bytes of keys come in the order of the keys.** -/
theorem before_iff_toBytes_lt (a b : UserKey) : Before a b ↔ a.toBytes < b.toBytes := by
  rw [← compare_eq_lt_iff_before, ← compare_toBytes, compare_list_lt]

/-! ### Reading -/

/-- Eight bytes are those of the integer that they are read as. -/
theorem toBytes_of_eight {body : List UInt8} (h : body.length = 8) :
    (int (Int64.ofInt (ofBigEndian body - 9223372036854775808))).toBytes = 1 :: body := by
  have hlt := ofBigEndian_lt body
  rw [h] at hlt
  have hvalue : (Int64.ofInt (ofBigEndian body - 9223372036854775808)).toInt =
      ofBigEndian body - 9223372036854775808 :=
    Int64.toInt_ofInt_of_le (by omega) (by omega)
  rw [toBytes, hvalue, sub_add_cancel, Int.toNat_natCast, ← h, bigEndian_ofBigEndian]

/-- **Bytes are those of a key and are read as it, or they are malformed and
refused.** -/
theorem ofBytes_cases (s : List UInt8) :
    (∃ k : UserKey, s = k.toBytes ∧ ofBytes s = .ok k) ∨
      (Malformed s ∧ ∃ message, ofBytes s = .error (.malformed message)) := by
  cases s with
  | nil => exact .inr ⟨.empty, _, rfl⟩
  | cons t body =>
    simp only [ofBytes]
    split_ifs with h1 h8 h3 h4
    · subst h1
      exact .inl ⟨_, (toBytes_of_eight h8).symm, rfl⟩
    · subst h1
      exact .inr ⟨.integerLength h8, _, rfl⟩
    · subst h3
      cases hread : Utf8.decode? body with
      | some s =>
        have hbody := Utf8.eq_encode_of_decode? hread
        exact .inl ⟨text s, by rw [hbody, toBytes], rfl⟩
      | none =>
        refine .inr ⟨.noText fun s hbody => ?_, _, rfl⟩
        rw [hbody, Utf8.decode?_encode] at hread
        cases hread
    · subst h4
      exact .inl ⟨bytes body, rfl, rfl⟩
    · exact .inr ⟨.unknownTag body h1 h3 h4, _, rfl⟩

theorem Malformed.ne_toBytes {s : List UInt8} (h : Malformed s) (k : UserKey) : s ≠ k.toBytes := by
  rintro rfl
  cases k with
  | int n =>
    cases h with
    | unknownTag _ h1 => exact h1 rfl
    | integerLength h8 => exact h8 (length_bigEndian ..)
  | text s =>
    cases h with
    | unknownTag _ _ h3 => exact h3 rfl
    | noText h => exact h s rfl
  | bytes bs =>
    cases h with
    | unknownTag _ _ _ h4 => exact h4 rfl

theorem ofBytes_eq_ok_iff {s : List UInt8} {k : UserKey} : ofBytes s = .ok k ↔ s = k.toBytes := by
  constructor
  · intro h
    rcases ofBytes_cases s with ⟨l, hs, hl⟩ | ⟨-, message, herror⟩
    · cases hl.symm.trans h
      exact hs
    · cases herror.symm.trans h
  · rintro rfl
    exact ofBytes_toBytes k

/-- **Bytes stand for keys.** Keys come in the order of their kinds, and those of
one kind in its own order, and so do their bytes, one by one. Bytes are read as a
key exactly if they are the bytes of that key. Those of no key are the empty ones,
those with an unknown tag, integers not of eight bytes and what is not the bytes of a
text, and exactly these are refused as malformed. -/
theorem bytes_stand_for_keys (a b k : UserKey) (s : List UInt8) :
    (compare a b = .lt ↔ Before a b) ∧ (Before a b ↔ a.toBytes < b.toBytes) ∧
    (ofBytes s = .ok k ↔ s = k.toBytes) ∧
    ((∀ l : UserKey, s ≠ l.toBytes) ↔ Malformed s) ∧
    (Malformed s ↔ ∃ message, ofBytes s = .error (.malformed message)) := by
  refine ⟨compare_eq_lt_iff_before a b, before_iff_toBytes_lt a b, ofBytes_eq_ok_iff, ?_, ?_⟩
  · refine ⟨fun hno => ?_, Malformed.ne_toBytes⟩
    rcases ofBytes_cases s with ⟨l, hs, -⟩ | ⟨hmalformed, -⟩
    · exact absurd hs (hno l)
    · exact hmalformed
  · rcases ofBytes_cases s with ⟨l, hs, hl⟩ | ⟨hmalformed, hrefused⟩
    · refine ⟨fun h => absurd hs (h.ne_toBytes l), fun ⟨message, herror⟩ => ?_⟩
      cases herror.symm.trans hl
    · exact ⟨fun _ => hrefused, fun _ => hmalformed⟩

/-- The sign of a number is turned, and a tag goes before everything else. -/
example : (int (-1)).toBytes < (int 0).toBytes ∧ (int 0).toBytes < (text "").toBytes ∧
    ofBytes [1, 0] = .error (.malformed "integer key of 1 bytes") := by
  decide +kernel

end UserKey
end KeyedRows
