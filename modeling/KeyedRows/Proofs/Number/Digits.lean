/-
# Digits

The number that digits write (`digitsOnto_eq_ofDigitChars`, `natural?_toDigits`), and
where digits end in a text: before the first character that is none
(`takeWhile_digits`, `dropWhile_digits`).

Key definitions: `Digits`, `EndsDigits`.
-/
import Mathlib
import KeyedRows.Number.Numeral

namespace KeyedRows.Number

/-- All characters are digits. -/
def Digits (cs : List Char) : Prop := ∀ c ∈ cs, c.isDigit = true

/-- The text begins with no digit. -/
def EndsDigits (cs : List Char) : Prop := ∀ c ∈ cs.head?, c.isDigit = false

theorem digits_toDigits (n : ℕ) : Digits (Nat.toDigits 10 n) := fun _ h =>
  Nat.isDigit_of_mem_toDigits (by decide) (by decide) h

theorem digits_zeros (k : ℕ) : Digits (List.replicate k '0') := by
  intro c hc
  rw [List.eq_of_mem_replicate hc]
  rfl

theorem Digits.append {ds es : List Char} (hds : Digits ds) (hes : Digits es) :
    Digits (ds ++ es) := fun c hc => (List.mem_append.mp hc).elim (hds c) (hes c)

theorem Digits.take {ds : List Char} (h : Digits ds) (k : ℕ) : Digits (ds.take k) :=
  fun c hc => h c (List.mem_of_mem_take hc)

theorem Digits.drop {ds : List Char} (h : Digits ds) (k : ℕ) : Digits (ds.drop k) :=
  fun c hc => h c (List.mem_of_mem_drop hc)

/-! ### The number that digits write -/

theorem digitsOnto_eq_ofDigitChars (n : ℕ) (cs : List Char) :
    digitsOnto n cs = Nat.ofDigitChars 10 cs n := by
  induction cs generalizing n with
  | nil => rfl
  | cons c cs ih => exact ih _

/-- So many digits write a number below the next power of ten. -/
theorem ofDigitChars_lt {cs : List Char} (h : Digits cs) :
    Nat.ofDigitChars 10 cs 0 < 10 ^ cs.length := by
  induction cs with
  | nil => simp
  | cons c cs ih =>
    have hc : c.toNat - '0'.toNat ≤ 9 := by
      have hdigit := (Char.isDigit_iff_toNat.mp (h c List.mem_cons_self)).2
      exact Nat.sub_le_sub_right hdigit '0'.toNat
    have hcs := ih fun d hd => h d (List.mem_cons_of_mem c hd)
    have hmul := Nat.mul_le_mul_left (10 ^ cs.length) hc
    rw [Nat.ofDigitChars_cons, Nat.ofDigitChars_eq_ofDigitChars_zero, Nat.mul_zero, Nat.zero_add,
      List.length_cons, pow_succ]
    omega

theorem natural?_eq_some_iff {cs : List Char} {n : ℕ} :
    natural? cs = some n ↔ cs ≠ [] ∧ Digits cs ∧ digitsOnto 0 cs = n := by
  unfold natural? Digits
  cases cs with
  | nil => simp
  | cons c cs =>
    by_cases hall : (c :: cs).all Char.isDigit = true
    · simp only [hall, List.isEmpty_cons, Bool.not_true, Bool.or_self, Bool.false_eq_true, if_false,
        Option.some.injEq, ne_eq, reduceCtorEq, not_false_eq_true, true_and]
      rw [List.all_eq_true] at hall
      exact (and_iff_right hall).symm
    · simp only [hall, List.isEmpty_cons, Bool.not_false, Bool.or_true, if_true, reduceCtorEq,
        false_iff, not_and]
      rw [List.all_eq_true] at hall
      exact fun _ h => absurd h hall

/-- A number is read back from its digits. -/
theorem natural?_toDigits (n : ℕ) : natural? (Nat.toDigits 10 n) = some n :=
  natural?_eq_some_iff.mpr ⟨Nat.toDigits_ne_nil, digits_toDigits n,
    (digitsOnto_eq_ofDigitChars 0 _).trans Nat.ofDigitChars_ten_toDigits⟩

/-- Only the number zero begins with the digit zero. -/
theorem toDigits_head_ne_zero {n : ℕ} (hn : 0 < n) : (Nat.toDigits 10 n).head? ≠ some '0' := by
  induction n using Nat.strong_induction_on with
  | _ n ih =>
    rw [Nat.toDigits_eq_if (by decide)]
    split_ifs with hsmall
    · have hchar : ∀ d < 10, 0 < d → Nat.digitChar d ≠ '0' := by decide
      simpa using hchar n hsmall hn
    · rw [List.head?_append_of_ne_nil _ Nat.toDigits_ne_nil]
      exact ih (n / 10) (by omega) (by omega)

/-! ### The end of digits -/

variable {ds rest : List Char}

theorem takeWhile_digits (hds : Digits ds) (hrest : EndsDigits rest) :
    (ds ++ rest).takeWhile Char.isDigit = ds := by
  rw [List.takeWhile_append_of_pos hds]
  cases rest with
  | nil => simp
  | cons c rest => simp [hrest c rfl]

theorem dropWhile_digits (hds : Digits ds) (hrest : EndsDigits rest) :
    (ds ++ rest).dropWhile Char.isDigit = rest := by
  rw [List.dropWhile_append_of_pos hds]
  cases rest with
  | nil => rfl
  | cons c rest => simp [hrest c rfl]

end KeyedRows.Number
