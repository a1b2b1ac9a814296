/-
# Readers take what was written

Dates and times in texts (`DateText`, `TimeText`, `OffsetText`) are numbers with
characters between them that are no digits. So each reader takes its number and
leaves the rest (`number_figures`), and the readers of dates, of times and of
moments with an offset take what was written for them, a fraction of a second down
to the nanosecond, of which the milliseconds are the first three digits
(`nanoseconds_div`). A text without an offset is none with one, at whatever number
the reader of such texts gives up (`offsetMoment_of_date`, `offsetMoment_of_time`).

Key definitions: `Figures`, `FractionText`, `DateText`, `TimeText`, `OffsetText`.
-/
import Mathlib
import KeyedRows.Calendar.Reader
import KeyedRows.Proofs.Number.Digits

namespace KeyedRows.Calendar

open Number

/-! ### How dates and times are written -/

/-- From `least` to `most` digits write the number. -/
structure Figures (least most : ℕ) (cs : List Char) (n : ℕ) : Prop where
  digits : Digits cs
  least : least ≤ cs.length
  most : cs.length ≤ most
  number : Nat.ofDigitChars 10 cs 0 = n

/-- A point and digits, or nothing, and the milliseconds that they write: the first
three digits count, and digits that are missing are zeros. -/
inductive FractionText : List Char → ℕ → Prop where
  | whole : FractionText [] 0
  | point {ds : List Char} : ds ≠ [] → Digits ds →
      FractionText ('.' :: ds) (Nat.ofDigitChars 10 ((ds ++ List.replicate 3 '0').take 3) 0)

/-- A day with a year of four digits, a month and a day of at most two digits. -/
inductive DateText (width : ℕ) : List Char → Date → Prop where
  | mk {y m d : List Char} {year month day : ℕ} :
      Figures 4 4 y year → Figures width 2 m month → Figures width 2 d day →
      (Date.mk year month day).isValid = true →
      DateText width (y ++ '-' :: (m ++ '-' :: d)) ⟨year, month, day⟩

/-- A time of day in hours, minutes and seconds of at most two digits, with or without
a fraction of the second, to the millisecond. -/
inductive TimeText (width : ℕ) : List Char → TimeOfDay → Prop where
  | mk {h m s f : List Char} {hour minute second millis : ℕ} :
      Figures width 2 h hour → Figures width 2 m minute → Figures width 2 s second →
      hour < 24 → minute < 60 → second < 60 → FractionText f millis →
      TimeText width (h ++ ':' :: (m ++ ':' :: (s ++ f))) ⟨hour, minute, second, millis * 1000000⟩

/-- An offset from universal time in minutes, less than a day. -/
inductive OffsetText : List Char → ℤ → Prop where
  | utc {c : Char} : c = 'Z' ∨ c = 'z' → OffsetText [c] 0
  | east {h m : List Char} {hours minutes : ℕ} : Figures 2 2 h hours → Figures 2 2 m minutes →
      hours < 24 → minutes < 60 → OffsetText ('+' :: (h ++ ':' :: m)) (hours * 60 + minutes)
  | west {h m : List Char} {hours minutes : ℕ} : Figures 2 2 h hours → Figures 2 2 m minutes →
      hours < 24 → minutes < 60 → OffsetText ('-' :: (h ++ ':' :: m)) (-(hours * 60 + minutes))

theorem Figures.ne_nil {least most n : ℕ} {cs : List Char} (h : Figures (least + 1) most cs n) :
    cs ≠ [] := by
  rintro rfl
  simpa using h.least

theorem Figures.widen {least least' most most' n : ℕ} {cs : List Char}
    (h : Figures least most cs n) (hleast : least' ≤ least) (hmost : most ≤ most') :
    Figures least' most' cs n :=
  ⟨h.digits, hleast.trans h.least, h.most.trans hmost, h.number⟩

/-! ### Fractions -/

/-- Nine digits, or so many with zeros after them, are a number of nanoseconds, and
the first three of them its milliseconds. -/
theorem nanoseconds_div {ds : List Char} (h : Digits ds) :
    Nat.ofDigitChars 10 (ds.take 9) 0 * 10 ^ (9 - (ds.take 9).length) / 1000000 =
      Nat.ofDigitChars 10 ((ds ++ List.replicate 3 '0').take 3) 0 := by
  obtain ⟨padded, hpadded⟩ : ∃ p, p = ds.take 9 ++ List.replicate (9 - (ds.take 9).length) '0' :=
    ⟨_, rfl⟩
  have hdigits : Digits padded := hpadded ▸ (h.take 9).append (digits_zeros _)
  have hlength : padded.length = 9 := by
    rw [hpadded, List.length_append, List.length_replicate, List.length_take]
    omega
  have hnumber : Nat.ofDigitChars 10 (ds.take 9) 0 * 10 ^ (9 - (ds.take 9).length) =
      Nat.ofDigitChars 10 padded 0 := by
    rw [hpadded, Nat.ofDigitChars_append, Nat.ofDigitChars_replicate_zero, Nat.mul_comm]
  have hfront : padded.take 3 = (ds ++ List.replicate 3 '0').take 3 := by
    rw [hpadded, List.take_append, List.take_append, List.take_take, List.take_replicate,
      List.take_replicate, List.length_take]
    congr 2
    omega
  have hsplit : Nat.ofDigitChars 10 padded 0 =
      10 ^ 6 * Nat.ofDigitChars 10 (padded.take 3) 0 + Nat.ofDigitChars 10 (padded.drop 3) 0 := by
    have hback : (padded.drop 3).length = 6 := by rw [List.length_drop, hlength]
    conv_lhs => rw [← List.take_append_drop 3 padded]
    rw [Nat.ofDigitChars_append, Nat.ofDigitChars_eq_ofDigitChars_zero, hback]
  have hlow : Nat.ofDigitChars 10 (padded.drop 3) 0 < 10 ^ 6 := by
    have hlt := ofDigitChars_lt (hdigits.drop 3)
    rwa [List.length_drop, hlength] at hlt
  rw [hnumber, hsplit, hfront]
  omega

namespace Reader

/-! ### Steps -/

section

variable {α β : Type} {r : Reader α} {f : α → Reader β} {cs rest : List Char} {a : α}

/-- A reader goes on where the one before it stopped. -/
theorem bind_of_some (h : r cs = some (a, rest)) : (r >>= f) cs = f a rest := by
  show (r cs).bind (fun p => f p.1 p.2) = f a rest
  rw [h, Option.bind_some]

/-- A reader fails where the one before it failed. -/
theorem bind_of_none (h : r cs = none) : (r >>= f) cs = none := by
  show (r cs).bind (fun p => f p.1 p.2) = none
  rw [h, Option.bind_none]

theorem get_apply (cs : List Char) : (get : Reader (List Char)) cs = some (cs, cs) := rfl

theorem char_apply (c : Char) (cs : List Char) : char c (c :: cs) = some ((), cs) := by
  rw [char, if_pos rfl]

end

/-! ### Numbers -/

variable {ds rest : List Char} {least most n : ℕ}

theorem takeWhile_take (hds : Digits ds) (hrest : EndsDigits rest) (k : ℕ) :
    ((ds ++ rest).take k).takeWhile Char.isDigit = ds.take k := by
  rw [List.take_append]
  refine takeWhile_digits (hds.take k) fun c hc => ?_
  cases rest with
  | nil => simp at hc
  | cons d rest =>
    cases hk : k - ds.length with
    | zero => simp [hk] at hc
    | succ j =>
      rw [hk, List.take_succ_cons, List.head?_cons] at hc
      exact hrest c hc

/-- A number ends with its digits or at its width. -/
theorem number_digits (hds : Digits ds) (hrest : EndsDigits rest)
    (hleast : least ≤ (ds.take most).length) :
    number least most (ds ++ rest) =
      some (Nat.ofDigitChars 10 (ds.take most) 0, ds.drop most ++ rest) := by
  have hdrop : (ds ++ rest).drop (ds.take most).length = ds.drop most ++ rest := by
    conv_lhs => rw [← List.take_append_drop most ds, List.append_assoc, List.take_append_drop]
    rw [List.drop_left]
  simp only [number, takeWhile_take hds hrest, Nat.not_lt.mpr hleast, if_false,
    digitsOnto_eq_ofDigitChars, hdrop]

/-- **A reader of numbers takes the digits** and leaves what follows them. -/
theorem number_figures (h : Figures least most ds n) (hrest : EndsDigits rest) :
    number least most (ds ++ rest) = some (n, rest) := by
  have htake : ds.take most = ds := List.take_of_length_le h.most
  rw [number_digits h.digits hrest (htake.symm ▸ h.least), htake, h.number,
    List.drop_of_length_le h.most, List.nil_append]

/-- Too few digits are no number. -/
theorem number_short (hds : Digits ds) (hrest : EndsDigits rest) (hshort : ds.length < least) :
    number least most (ds ++ rest) = none := by
  have hdigits : (((ds ++ rest).take most).takeWhile Char.isDigit).length < least := by
    rw [takeWhile_take hds hrest, List.length_take]
    omega
  simp only [number, hdigits, if_true]

/-- One or two digits are a number of two digits, or none. -/
theorem number_two_cases (h : Figures 1 2 ds n) (hrest : EndsDigits rest) :
    number 2 2 (ds ++ rest) = none ∨ number 2 2 (ds ++ rest) = some (n, rest) := by
  by_cases hshort : ds.length < 2
  · exact .inl (number_short h.digits hrest hshort)
  · exact .inr (number_figures ⟨h.digits, Nat.not_lt.mp hshort, h.most, h.number⟩ hrest)

/-- Digits begin with a digit. -/
theorem ne_cons_of_digits (hds : Digits ds) (hne : ds ≠ []) {c : Char} (hc : c.isDigit = false)
    (cs : List Char) : ds ++ rest ≠ c :: cs := by
  obtain ⟨d, t, rfl⟩ := List.exists_cons_of_ne_nil hne
  intro heq
  have hd := hds d List.mem_cons_self
  rw [(List.cons.inj heq).1, hc] at hd
  cases hd

theorem isBlank_digit {c : Char} (h : c.isDigit = true) : Text.isBlank c = false := by
  have hbounds := Char.isDigit_iff_toNat.mp h
  have hzero : '0'.toNat = 48 := rfl
  have hnine : '9'.toNat = 57 := rfl
  simp [Text.isBlank]
  omega

/-- Digits have no blanks before them. -/
theorem blanks_digits (hds : Digits ds) (hne : ds ≠ []) (rest : List Char) :
    blanks (ds ++ rest) = some ((), ds ++ rest) := by
  obtain ⟨d, t, rfl⟩ := List.exists_cons_of_ne_nil hne
  simp [blanks, Text.trimStart, isBlank_digit (hds d List.mem_cons_self)]

theorem field_figures (h : Figures 1 2 ds n) (hrest : EndsDigits rest) :
    field (ds ++ rest) = some (n, rest) := by
  rw [field, bind_of_some (blanks_digits h.digits h.ne_nil rest), number_figures h hrest]

/-- A year without a sign has at most four digits. -/
theorem year_figures (h : Figures 1 4 ds n) (hrest : EndsDigits rest) :
    year (ds ++ rest) = some ((n : ℤ), rest) := by
  have hnumber := number_figures h hrest
  have hminus (cs : List Char) : ds ++ rest ≠ '-' :: cs :=
    ne_cons_of_digits h.digits h.ne_nil rfl cs
  have hplus (cs : List Char) : ds ++ rest ≠ '+' :: cs :=
    ne_cons_of_digits h.digits h.ne_nil rfl cs
  rw [year, bind_of_some (blanks_digits h.digits h.ne_nil rest), bind_of_some (get_apply _)]
  generalize ds ++ rest = cs at hnumber hminus hplus
  split
  · exact absurd rfl (hminus _)
  · exact absurd rfl (hplus _)
  · rw [bind_of_some hnumber]
    rfl

/-! ### Dates and times -/

theorem endsDigits_cons {c : Char} (hc : c.isDigit = false) (rest : List Char) :
    EndsDigits (c :: rest) := by
  intro d hd
  rw [← Option.mem_some_iff.mp hd]
  exact hc

theorem endsDigits_nil : EndsDigits [] := nofun

theorem date_reads {cs : List Char} {d : Date} (h : DateText 1 cs d) (hrest : EndsDigits rest) :
    date (cs ++ rest) = some (d, rest) := by
  cases h with
  | @mk y m ds year month day hy hm hd hvalid =>
    rw [List.append_assoc, List.cons_append, List.append_assoc, List.cons_append, date,
      bind_of_some (year_figures (hy.widen (by decide) le_rfl) (endsDigits_cons rfl _)),
      bind_of_some (char_apply _ _), bind_of_some (field_figures hm (endsDigits_cons rfl _)),
      bind_of_some (char_apply _ _), bind_of_some (field_figures hd hrest), checkDate,
      if_pos hvalid]
    rfl

theorem fraction_point (cs : List Char) : fraction ('.' :: cs) =
    (number 1 9 cs).bind fun (n, later) =>
      some (n * 10 ^ (9 - (cs.length - later.length)), later.dropWhile Char.isDigit) := rfl

/-- A fraction is read down to the nanosecond. -/
theorem fraction_reads {cs : List Char} {millis : ℕ} (h : FractionText cs millis)
    (hrest : EndsDigits rest) (hpoint : ∀ ds, rest ≠ '.' :: ds) :
    ∃ nanos, fraction (cs ++ rest) = some (nanos, rest) ∧ nanos / 1000000 = millis := by
  cases h with
  | whole =>
    refine ⟨0, ?_, rfl⟩
    rw [List.nil_append, fraction, bind_of_some (get_apply _)]
    split
    · exact absurd rfl (hpoint _)
    · rfl
  | @point ds hne hds =>
    refine ⟨_, ?_, nanoseconds_div hds⟩
    have hleast : 1 ≤ (ds.take 9).length := by
      have hpos := List.length_pos_of_ne_nil hne
      rw [List.length_take]
      omega
    have hcount : (ds ++ rest).length - (ds.drop 9 ++ rest).length = (ds.take 9).length := by
      rw [List.length_append, List.length_append, List.length_drop, List.length_take]
      omega
    rw [List.cons_append, fraction_point, number_digits hds hrest hleast, Option.bind_some]
    simp only [dropWhile_digits (hds.drop 9) hrest, hcount]

theorem endsDigits_of_fraction {cs : List Char} {millis : ℕ} (h : FractionText cs millis)
    (hrest : EndsDigits rest) : EndsDigits (cs ++ rest) := by
  cases h with
  | whole => exact hrest
  | point => exact endsDigits_cons rfl _

theorem checkTime_of_lt {h m s : ℕ} (hh : h < 24) (hm : m < 60) (hs : s < 60) (n : ℕ)
    (cs : List Char) : checkTime h m s n cs = some (⟨h, m, s, n⟩, cs) := by
  rw [checkTime, if_neg (by omega), if_neg (by omega)]
  rfl

/-- A time of day is read down to the nanosecond. -/
theorem time_reads {cs : List Char} {t : TimeOfDay} (h : TimeText 1 cs t) :
    ∃ raw : TimeOfDay, time cs = some (raw, []) ∧ raw.toMillis = t.toMillis := by
  cases h with
  | @mk h m s f hour minute second millis hh hm hs hhour hminute hsecond hf =>
    obtain ⟨nanos, hfraction, hmillis⟩ := fraction_reads hf endsDigits_nil nofun
    rw [List.append_nil] at hfraction
    have hends := endsDigits_of_fraction hf endsDigits_nil
    rw [List.append_nil] at hends
    refine ⟨⟨hour, minute, second, nanos⟩, ?_, ?_⟩
    · rw [time, bind_of_some (field_figures hh (endsDigits_cons rfl _)),
        bind_of_some (char_apply _ _), bind_of_some (field_figures hm (endsDigits_cons rfl _)),
        bind_of_some (char_apply _ _), bind_of_some (field_figures hs hends),
        bind_of_some hfraction, checkTime_of_lt hhour hminute hsecond]
    · rw [TimeOfDay.toMillis, TimeOfDay.toMillis, hmillis, Nat.mul_div_cancel _ (by decide)]

/-! ### Moments with an offset -/

/-- The offset after its sign. -/
def unsigned (seconds : ℤ → ℤ) : Reader ℤ := do
  let h ← number 2 2
  char ':'
  let m ← number 2 2
  if 23 < h ∨ 59 < m then failure
  return seconds ((h * 60 + m) * 60)

theorem offset_plus (cs : List Char) : offset ('+' :: cs) = unsigned id cs := rfl

theorem offset_minus (cs : List Char) : offset ('-' :: cs) = unsigned Neg.neg cs := rfl

theorem unsigned_figures {h m : List Char} {hours minutes : ℕ} (hh : Figures 2 2 h hours)
    (hm : Figures 2 2 m minutes) (hhours : hours < 24) (hminutes : minutes < 60)
    (seconds : ℤ → ℤ) :
    unsigned seconds (h ++ ':' :: m) = some (seconds ((hours * 60 + minutes) * 60), []) := by
  rw [unsigned, bind_of_some (number_figures hh (endsDigits_cons rfl _)),
    bind_of_some (char_apply _ _), ← List.append_nil m,
    bind_of_some (number_figures hm endsDigits_nil), if_neg (by omega)]
  rfl

theorem offset_reads {cs : List Char} {minutes : ℤ} (h : OffsetText cs minutes) :
    offset cs = some (minutes * 60, []) := by
  cases h with
  | utc hc => rcases hc with rfl | rfl <;> rfl
  | east hh hm hhours hminutes =>
    rw [offset_plus, unsigned_figures hh hm hhours hminutes]
    rfl
  | west hh hm hhours hminutes =>
    rw [offset_minus, unsigned_figures hh hm hhours hminutes, Int.neg_mul]

/-- What begins an offset is no digit and no point. -/
theorem offset_head {cs : List Char} {minutes : ℤ} (h : OffsetText cs minutes) :
    EndsDigits cs ∧ ∀ ds, cs ≠ '.' :: ds := by
  cases h with
  | utc hc => rcases hc with rfl | rfl <;> exact ⟨endsDigits_cons rfl _, by simp⟩
  | east => exact ⟨endsDigits_cons rfl _, by simp⟩
  | west => exact ⟨endsDigits_cons rfl _, by simp⟩

/-- What stands between a date and a time that has an offset. -/
def separator : Reader Unit := do
  match ← get with
  | c :: cs => if c = 'T' ∨ c = 't' ∨ c = ' ' then set cs else failure
  | [] => failure

theorem separator_cons {c : Char} (hc : c = 'T' ∨ c = 't' ∨ c = ' ') (cs : List Char) :
    separator (c :: cs) = some ((), cs) := by
  rcases hc with rfl | rfl | rfl <;> rfl

/-- A moment with an offset, after its date. -/
def timeAndOffset (y m d : ℕ) : Reader (Moment × ℤ) := do
  separator
  let h ← number 2 2
  char ':'
  let min ← number 2 2
  char ':'
  let s ← number 2 2
  let n ← fraction
  let o ← offset
  return (⟨← checkDate y m d, ← checkTime h min s n⟩, o)

theorem offsetMoment_eq : offsetMoment = (do
    let y ← number 4 4
    char '-'
    let m ← number 2 2
    char '-'
    let d ← number 2 2
    timeAndOffset y m d) := by
  refine bind_congr fun y => bind_congr fun _ => bind_congr fun m => bind_congr fun _ =>
    bind_congr fun d => ?_
  rw [timeAndOffset, separator, bind_assoc]
  refine bind_congr fun cs => ?_
  cases cs with
  | nil => rfl
  | cons c cs =>
    simp only
    split_ifs <;> rfl

/-- **A moment with its offset is read** down to the nanosecond. -/
theorem offsetMoment_reads {d t o : List Char} {date : Date} {clock : TimeOfDay} {minutes : ℤ}
    {c : Char} (hd : DateText 2 d date) (hc : c = 'T' ∨ c = 't' ∨ c = ' ') (ht : TimeText 2 t clock)
    (ho : OffsetText o minutes) :
    ∃ raw : TimeOfDay, offsetMoment (d ++ c :: (t ++ o)) = some ((⟨date, raw⟩, minutes * 60), []) ∧
      raw.toMillis = clock.toMillis := by
  cases hd with
  | @mk y m d year month day hy hm hd hvalid =>
    cases ht with
    | @mk h min s f hour minute second millis hh hmin hs hhour hminute hsecond hf =>
      obtain ⟨hdigits, hpoint⟩ := offset_head ho
      obtain ⟨nanos, hfraction, hmillis⟩ := fraction_reads hf hdigits hpoint
      have hcheck : checkDate year month day [] = some (⟨year, month, day⟩, []) := by
        rw [checkDate, if_pos hvalid]
        rfl
      refine ⟨⟨hour, minute, second, nanos⟩, ?_, ?_⟩
      · simp only [List.append_assoc, List.cons_append]
        rw [offsetMoment_eq, bind_of_some (number_figures hy (endsDigits_cons rfl _)),
          bind_of_some (char_apply _ _), bind_of_some (number_figures hm (endsDigits_cons rfl _)),
          bind_of_some (char_apply _ _), bind_of_some (number_figures hd (endsDigits_cons
            (by rcases hc with rfl | rfl | rfl <;> rfl) _)),
          timeAndOffset, bind_of_some (separator_cons hc _),
          bind_of_some (number_figures hh (endsDigits_cons rfl _)), bind_of_some (char_apply _ _),
          bind_of_some (number_figures hmin (endsDigits_cons rfl _)), bind_of_some (char_apply _ _),
          bind_of_some (number_figures hs (endsDigits_of_fraction hf hdigits)),
          bind_of_some hfraction, bind_of_some (offset_reads ho), bind_of_some hcheck,
          bind_of_some (checkTime_of_lt hhour hminute hsecond nanos [])]
        rfl
      · rw [TimeOfDay.toMillis, TimeOfDay.toMillis, hmillis, Nat.mul_div_cancel _ (by decide)]

/-! ### Texts without an offset -/

/-- A time without an offset is not enough. -/
theorem timeAndOffset_of_time {t : List Char} {clock : TimeOfDay} (ht : TimeText 1 t clock)
    {c : Char} (hc : c = 'T' ∨ c = 't' ∨ c = ' ') (y m d : ℕ) :
    timeAndOffset y m d (c :: t) = none := by
  cases ht with
  | @mk h min s f hour minute second millis hh hmin hs hhour hminute hsecond hf =>
    have hends := endsDigits_of_fraction hf endsDigits_nil
    obtain ⟨nanos, hfraction, -⟩ := fraction_reads hf endsDigits_nil nofun
    rw [List.append_nil] at hfraction hends
    rw [timeAndOffset, bind_of_some (separator_cons hc _)]
    rcases number_two_cases hh (endsDigits_cons (c := ':') rfl (min ++ ':' :: (s ++ f)))
      with hn | hn
    · exact bind_of_none hn
    rw [bind_of_some hn, bind_of_some (char_apply _ _)]
    rcases number_two_cases hmin (endsDigits_cons (c := ':') rfl (s ++ f)) with hn | hn
    · exact bind_of_none hn
    rw [bind_of_some hn, bind_of_some (char_apply _ _)]
    rcases number_two_cases hs hends with hn | hn
    · exact bind_of_none hn
    rw [bind_of_some hn, bind_of_some hfraction]
    rfl

/-- **A date is no moment with an offset**, nor is it one with what follows if this
is no time with an offset. -/
theorem offsetMoment_of_date {d rest : List Char} {date : Date} (hd : DateText 1 d date)
    (hrest : EndsDigits rest) (htime : ∀ y m d, timeAndOffset y m d rest = none) :
    offsetMoment (d ++ rest) = none := by
  cases hd with
  | @mk y m d year month day hy hm hd hvalid =>
    simp only [List.append_assoc, List.cons_append]
    rw [offsetMoment_eq, bind_of_some (number_figures hy (endsDigits_cons rfl _)),
      bind_of_some (char_apply _ _)]
    rcases number_two_cases hm (endsDigits_cons (c := '-') rfl (d ++ rest)) with hn | hn
    · exact bind_of_none hn
    rw [bind_of_some hn, bind_of_some (char_apply _ _)]
    rcases number_two_cases hd hrest with hn | hn
    · exact bind_of_none hn
    rw [bind_of_some hn]
    exact htime _ _ _

/-- **A time is no moment with an offset**: its first number is too short for a
year. -/
theorem offsetMoment_of_time {t : List Char} {clock : TimeOfDay} (ht : TimeText 1 t clock) :
    offsetMoment t = none := by
  cases ht with
  | @mk h min s f hour minute second millis hh =>
    rw [offsetMoment_eq]
    exact bind_of_none (number_short hh.digits (endsDigits_cons rfl _)
      (Nat.lt_of_le_of_lt hh.most (by decide)))

end Reader
end KeyedRows.Calendar
