/-
# Keys and their bytes

The bytes of a key are the key again when they are read (`ofBytes_toBytes`),
and they compare as the keys do (`compare_toBytes`): the tags stand in the
order of the kinds, and a number in a fixed count of bytes, the most
significant first, compares as the number (`compare_bigEndian`).

Key theorems: **`ofBytes_toBytes`**, **`compare_toBytes`**.
-/
import Mathlib
import KeyedRows.Key.Bytes

namespace KeyedRows

namespace Number

theorem foldl_bytes (bytes : List UInt8) (start : ℕ) :
    bytes.foldl (fun n b => 256 * n + b.toNat) start =
      start * 256 ^ bytes.length + ofBigEndian bytes := by
  induction bytes generalizing start with
  | nil => simp [ofBigEndian]
  | cons b bytes ih =>
    rw [ofBigEndian, List.foldl_cons, List.foldl_cons, ih, ih (256 * 0 + b.toNat),
      List.length_cons, pow_succ]
    ring

/-- Reading the lowest bytes of a number gives what is left of it. -/
theorem ofBigEndian_bigEndian (count n : ℕ) :
    ofBigEndian (bigEndian count n) = n % 256 ^ count := by
  induction count with
  | zero => simp [bigEndian, ofBigEndian, Nat.mod_one]
  | succ k ih =>
    rw [bigEndian, ofBigEndian, List.foldl_cons, foldl_bytes, ih, length_bigEndian,
      Nat.mod_pow_succ]
    simp only [UInt8.toNat_ofNat', Nat.pow_eq]
    ring

theorem compare_uint8 (a b : UInt8) : compare a b = compare a.toNat b.toNat := by
  rw [Nat.compare_eq_ite_lt]
  have h : compare a b = if a < b then .lt else if a = b then .eq else .gt := rfl
  rw [h]
  simp only [UInt8.lt_iff_toNat_lt, ← UInt8.toNat_inj]
  split_ifs <;> first | rfl | omega

/-- Of numbers with a quotient and a rest, the quotients decide, and then the
rests. -/
theorem compare_mul_add {base r s : ℕ} (hr : r < base) (hs : s < base) (p q : ℕ) :
    compare (r + base * p) (s + base * q) = (compare p q).then (compare r s) := by
  rcases lt_trichotomy p q with hpq | rfl | hpq
  · have hlt : r + base * p < s + base * q := by
      have hstep : base * (p + 1) ≤ base * q := Nat.mul_le_mul_left base hpq
      rw [Nat.mul_succ] at hstep
      omega
    rw [Nat.compare_eq_lt.mpr hlt, Nat.compare_eq_lt.mpr hpq]
    rfl
  · rw [Nat.compare_eq_eq.mpr rfl]
    simp [Nat.compare_eq_ite_lt]
  · have hlt : s + base * q < r + base * p := by
      have hstep : base * (q + 1) ≤ base * p := Nat.mul_le_mul_left base hpq
      rw [Nat.mul_succ] at hstep
      omega
    rw [Nat.compare_eq_gt.mpr hlt, Nat.compare_eq_gt.mpr hpq]
    rfl

/-- **Numbers in one count of bytes compare as their bytes do.** -/
theorem compare_bigEndian (count a b : ℕ) :
    compare (bigEndian count a) (bigEndian count b) =
      compare (a % 256 ^ count) (b % 256 ^ count) := by
  induction count with
  | zero => simp [bigEndian, Nat.mod_one]
  | succ k ih =>
    have hpos : 0 < 256 ^ k := Nat.pow_pos (by decide)
    rw [bigEndian, bigEndian, List.compare_cons_cons, ih, compare_uint8, Nat.mod_pow_succ,
      Nat.mod_pow_succ, compare_mul_add (Nat.mod_lt _ hpos) (Nat.mod_lt _ hpos)]
    simp only [UInt8.toNat_ofNat', Nat.pow_eq]

end Number

namespace UserKey

open Number

/-- A raised integer fits into eight bytes. -/
theorem raised_mod (n : Int64) :
    (n.toInt + 9223372036854775808).toNat % 256 ^ 8 = (n.toInt + 9223372036854775808).toNat := by
  have := n.toInt_lt
  have := n.le_toInt
  exact Nat.mod_eq_of_lt (by omega)

/-- **The bytes of a key are read as the key.** -/
theorem ofBytes_toBytes (u : UserKey) : ofBytes u.toBytes = .ok u := by
  cases u with
  | int n =>
    have hlow := n.le_toInt
    have hraised : ((n.toInt + 9223372036854775808).toNat : ℤ) - 9223372036854775808 = n.toInt := by
      omega
    simp only [toBytes, ofBytes, length_bigEndian, ofBigEndian_bigEndian, raised_mod, hraised,
      Int64.ofInt_toInt, if_true]
  | text s => simp [toBytes, ofBytes, Text.Utf8.decode?_encode]
  | bytes bs => simp [toBytes, ofBytes]

theorem compare_raised (m n : Int64) :
    compare (m.toInt + 9223372036854775808).toNat (n.toInt + 9223372036854775808).toNat =
      compare m.toInt n.toInt := by
  have hm := m.le_toInt
  have hn := n.le_toInt
  rw [Nat.compare_eq_ite_lt, Int.compare_eq_ite_lt]
  split_ifs <;> first | rfl | omega

/-! ### Keys of one kind -/

theorem compare_int (m n : Int64) : compare (int m) (int n) = compare m.toInt n.toInt := by
  have hparts : compare (int m) (int n) =
      (compare 0 0).then ((compare m.toInt n.toInt).then (compare [] ([] : List UInt8))) := rfl
  simpa using hparts

theorem compare_text (s t : String) :
    compare (text s) (text t) = compare (Text.Utf8.encode s) (Text.Utf8.encode t) := by
  have hparts : compare (text s) (text t) = (compare 1 1).then
      ((compare (0 : ℤ) 0).then (compare (Text.Utf8.encode s) (Text.Utf8.encode t))) := rfl
  simpa using hparts

theorem compare_bytes (bs cs : List UInt8) : compare (bytes bs) (bytes cs) = compare bs cs := by
  have hparts : compare (bytes bs) (bytes cs) =
      (compare 2 2).then ((compare (0 : ℤ) 0).then (compare bs cs)) := rfl
  simpa using hparts

/-- **Keys compare as their bytes do.** -/
theorem compare_toBytes (u v : UserKey) : compare u.toBytes v.toBytes = compare u v := by
  -- of two kinds the tags decide, as the ranks do
  cases u with
  | int m =>
    cases v with
    | int n =>
      rw [compare_int, toBytes, toBytes, List.compare_cons_cons, compare_bigEndian, raised_mod,
        raised_mod, compare_raised]
      rfl
    | text t => rfl
    | bytes cs => rfl
  | text s =>
    cases v with
    | int n => rfl
    | text t => simp [toBytes, compare_text]
    | bytes cs => rfl
  | bytes bs =>
    cases v with
    | int n => rfl
    | text t => rfl
    | bytes cs => simp [toBytes, compare_bytes]

end UserKey
end KeyedRows
