/-
# Texts are read as the moments they name

A text names a moment by a date and a time, by a date alone, by a time alone, or by
a local date and time with the offset of their clock (`MomentText`). The forms are
tried one after the other, and a form before the right one does not take the text
(`millisOfText?_of_text`). What is read are milliseconds, from which the moment is
found again, as every moment of these forms is in the calendar
(`MomentText.spec`).

Key definition: `MomentText`.
Key theorem: **`texts_read_through_millis`**.
-/
import Mathlib
import KeyedRows.Proofs.Calendar.Days
import KeyedRows.Proofs.Calendar.Reading
import KeyedRows.Typed.Moment

namespace KeyedRows

open Number

/-! ### Blanks around a text -/

namespace Text

/-- The last character is no blank. -/
def EndsSolid (cs : List Char) : Prop := ∃ c, isBlank c = false ∧ [c] <:+ cs

theorem EndsSolid.of_suffix {ds cs : List Char} (h : EndsSolid ds) (hsuffix : ds <:+ cs) :
    EndsSolid cs := by
  obtain ⟨c, hc, hlast⟩ := h
  exact ⟨c, hc, hlast.trans hsuffix⟩

theorem endsSolid_digits {ds : List Char} (h : Digits ds) (hne : ds ≠ []) : EndsSolid ds := by
  refine ⟨ds.getLast hne, Calendar.Reader.isBlank_digit (h _ (List.getLast_mem hne)), ?_⟩
  exact ⟨ds.dropLast, List.dropLast_append_getLast hne⟩

theorem trimStart_blanks {before cs : List Char} {c : Char}
    (hbefore : ∀ d ∈ before, isBlank d = true) (hc : isBlank c = false) :
    trimStart (before ++ c :: cs) = c :: cs := by
  rw [trimStart, List.dropWhile_append_of_pos hbefore, List.dropWhile_cons_of_neg (by simp [hc])]

/-- **Blanks around a text do not count.** -/
theorem trim_blanks {before cs after : List Char} {c : Char}
    (hbefore : ∀ d ∈ before, isBlank d = true) (hafter : ∀ d ∈ after, isBlank d = true)
    (hc : isBlank c = false) (hlast : EndsSolid (c :: cs)) :
    trim (before ++ (c :: cs) ++ after) = c :: cs := by
  obtain ⟨d, hd, front, hfront⟩ := hlast
  have hback : (c :: (cs ++ after)).reverse = after.reverse ++ d :: front.reverse := by
    rw [← List.cons_append, ← hfront]
    simp
  have hwhole : d :: front.reverse = (c :: cs).reverse := by
    rw [← hfront]
    simp
  rw [trim, List.append_assoc, List.cons_append, trimStart_blanks hbefore hc, hback,
    trimStart_blanks (fun e he => hafter e (List.mem_reverse.mp he)) hd, hwhole,
    List.reverse_reverse]

end Text

namespace Calendar

open Text

/-! ### Texts that name a moment -/

/-- The moment in universal time that a text names. -/
inductive MomentText : List Char → Moment → Prop where
  | dateTime {d t : List Char} {date : Date} {clock : TimeOfDay} {c : Char} :
      DateText 1 d date → TimeText 1 t clock → c = ' ' ∨ c = 'T' →
      MomentText (d ++ c :: t) ⟨date, clock⟩
  | date {d : List Char} {date : Date} : DateText 1 d date → MomentText d ⟨date, .midnight⟩
  | time {t : List Char} {clock : TimeOfDay} : TimeText 1 t clock → MomentText t ⟨.epoch, clock⟩
  | offset {d t o : List Char} {date : Date} {clock : TimeOfDay} {minutes : ℤ} {c : Char} :
      DateText 2 d date → TimeText 2 t clock → OffsetText o minutes → c = 'T' ∨ c = 't' ∨ c = ' ' →
      MomentText (d ++ c :: (t ++ o)) (Moment.earlier ⟨date, clock⟩ minutes)

/-- A year of four digits is far from the ends of the calendar. -/
theorem DateText.spec {width : ℕ} {cs : List Char} {date : Date} (h : DateText width cs date) :
    date.isValid = true ∧ 0 ≤ date.year ∧ date.year < 10000 := by
  cases h with
  | @mk y m d year month day hy hm hd hvalid =>
    refine ⟨hvalid, Int.natCast_nonneg year, ?_⟩
    have hlength : y.length = 4 := le_antisymm hy.most hy.least
    have hlt := ofDigitChars_lt hy.digits
    rw [hy.number, hlength] at hlt
    exact Int.ofNat_lt.mpr hlt

theorem FractionText.lt {cs : List Char} {millis : ℕ} (h : FractionText cs millis) :
    millis < 1000 := by
  cases h with
  | whole => decide
  | @point ds hne hds =>
    have hlength : ((ds ++ List.replicate 3 '0').take 3).length = 3 := by simp
    have hlt := ofDigitChars_lt ((hds.append (digits_zeros 3)).take 3)
    rwa [hlength] at hlt

theorem TimeText.whole {width : ℕ} {cs : List Char} {clock : TimeOfDay}
    (h : TimeText width cs clock) : clock.Whole := by
  cases h with
  | mk hh hm hs hhour hminute hsecond hf => exact ⟨hhour, hminute, hsecond, _, hf.lt, rfl⟩

theorem OffsetText.bounds {cs : List Char} {minutes : ℤ} (h : OffsetText cs minutes) :
    -1440 < minutes ∧ minutes < 1440 := by
  cases h with
  | utc => decide
  | east hh hm hhours hminutes => omega
  | west hh hm hhours hminutes => omega

/-- A clock that is put back by less than a day stays in the calendar, where this
has a year before and a year after. -/
theorem Moment.isValid_earlier {m : Moment} (h : m.date.Proper)
    (hyear : Date.leastYear < m.date.year ∧ m.date.year < Date.greatestYear) (minutes : ℤ) :
    (m.earlier minutes).date.isValid = true := by
  rw [Date.isValid_iff]
  refine ⟨?_, Moment.proper_earlier h minutes⟩
  obtain ⟨hleast, hgreatest⟩ := hyear
  simp only [Moment.earlier, Date.previous, Date.next, apply_ite Date.year]
  split_ifs <;> omega

theorem TimeOfDay.whole_midnight : TimeOfDay.midnight.Whole :=
  ⟨by decide, by decide, by decide, 0, by decide, rfl⟩

/-- **What a text names is in the calendar**, to the millisecond. -/
theorem MomentText.spec {cs : List Char} {m : Moment} (h : MomentText cs m) :
    m.date.isValid = true ∧ m.time.Whole := by
  cases h with
  | dateTime hd ht => exact ⟨hd.spec.1, ht.whole⟩
  | date hd => exact ⟨hd.spec.1, TimeOfDay.whole_midnight⟩
  | time ht => exact ⟨rfl, ht.whole⟩
  | offset hd ht =>
    obtain ⟨hvalid, hleast, hmost⟩ := hd.spec
    have hgap : Date.leastYear < 0 ∧ 10000 ≤ Date.greatestYear := by decide
    exact ⟨Moment.isValid_earlier ((Date.isValid_iff _).mp hvalid).2
      ⟨hgap.1.trans_le hleast, hmost.trans_le hgap.2⟩ _, Moment.whole_earlier ht.whole _⟩

/-! ### The forms are told apart -/

namespace Reader

theorem whole_of_some {α : Type} {r : Reader α} {cs : List Char} {a : α} (h : r cs = some (a, [])) :
    r.whole cs = some a := by
  rw [whole, h]

theorem whole_of_none {α : Type} {r : Reader α} {cs : List Char} (h : r cs = none) :
    r.whole cs = none := by
  rw [whole, h]

/-- What begins with no digit, after its blanks, is no time. -/
theorem time_of_endsDigits {cs : List Char} (h : EndsDigits (trimStart cs)) : time cs = none := by
  have hfield : field cs = none := by
    rw [field, bind_of_some (rfl : blanks cs = some ((), trimStart cs)),
      ← List.nil_append (trimStart cs)]
    exact number_short (fun _ hc => absurd hc List.not_mem_nil) h Nat.one_pos
  rw [time, bind_of_none hfield]

/-- A time is no date: its first number ends with a colon. -/
theorem date_of_time {t : List Char} {clock : TimeOfDay} (ht : TimeText 1 t clock) :
    date t = none := by
  cases ht with
  | mk hh =>
    rw [date, bind_of_some (year_figures (hh.widen le_rfl (by decide)) (endsDigits_cons rfl _))]
    rfl

variable {d t : List Char} {day : Date} {clock : TimeOfDay}

theorem dateTime_of_time (ht : TimeText 1 t clock) (separator : Reader Unit) :
    dateTime separator t = none := by
  rw [dateTime, bind_of_none (date_of_time ht)]

/-- A date and a time are read with what stands between them. -/
theorem dateTime_reads (hd : DateText 1 d day) (ht : TimeText 1 t clock) {separator : Reader Unit}
    {c : Char} (hc : c.isDigit = false) (hseparator : separator (c :: t) = some ((), t)) :
    ∃ raw : TimeOfDay, dateTime separator (d ++ c :: t) = some (⟨day, raw⟩, []) ∧
      raw.toMillis = clock.toMillis := by
  obtain ⟨raw, hraw, hmillis⟩ := time_reads ht
  refine ⟨raw, ?_, hmillis⟩
  rw [dateTime, bind_of_some (date_reads hd (endsDigits_cons hc t)), bind_of_some hseparator,
    bind_of_some hraw]
  rfl

/-- A blank may stand between a date and a time. -/
theorem blanks_time (ht : TimeText 1 t clock) : blanks (' ' :: t) = some ((), t) := by
  cases ht with
  | mk hh => exact blanks_digits hh.digits hh.ne_nil _

/-- Blanks do not stand for a letter, nor for a time that is missing. -/
theorem dateTime_blanks_of_endsDigits (hd : DateText 1 d day) {rest : List Char}
    (hrest : EndsDigits rest) (htrim : EndsDigits (trimStart rest)) :
    dateTime blanks (d ++ rest) = none := by
  have htwice : trimStart (trimStart rest) = trimStart rest := List.dropWhile_idempotent _ _
  rw [dateTime, bind_of_some (date_reads hd hrest),
    bind_of_some (rfl : blanks rest = some ((), trimStart rest)),
    bind_of_none (time_of_endsDigits (htwice.symm ▸ htrim))]

end Reader

/-! ### What every form has -/

/-- A text of any of the forms begins with a number that does not end it, and ends
with no blank. -/
structure Shaped (cs : List Char) : Prop where
  number : ∃ ds c rest, cs = ds ++ c :: rest ∧ Digits ds ∧ ds ≠ [] ∧ c.isDigit = false
  last : EndsSolid cs

theorem Shaped.append {cs ds : List Char} (hcs : Shaped cs) (hds : EndsSolid ds) :
    Shaped (cs ++ ds) := by
  obtain ⟨front, c, rest, rfl, hfront⟩ := hcs.number
  exact ⟨⟨front, c, rest ++ ds, by simp, hfront⟩, hds.of_suffix (List.suffix_append _ _)⟩

theorem DateText.shaped {width : ℕ} {d : List Char} {date : Date}
    (h : DateText (width + 1) d date) : Shaped d := by
  cases h with
  | @mk y m d year month day hy hm hd =>
    have hlast : EndsSolid d := endsSolid_digits hd.digits hd.ne_nil
    refine ⟨⟨y, '-', _, rfl, hy.digits, hy.ne_nil, rfl⟩, hlast.of_suffix ?_⟩
    exact ⟨y ++ '-' :: (m ++ ['-']), by simp⟩

theorem TimeText.shaped {width : ℕ} {t : List Char} {clock : TimeOfDay}
    (h : TimeText (width + 1) t clock) : Shaped t := by
  cases h with
  | @mk h m s f hour minute second millis hh hm hs _ _ _ hf =>
    have hlast : EndsSolid (s ++ f) := by
      cases hf with
      | whole => exact (List.append_nil s).symm ▸ endsSolid_digits hs.digits hs.ne_nil
      | @point ds hne hds =>
        exact (endsSolid_digits hds hne).of_suffix ⟨s ++ ['.'], by simp⟩
    refine ⟨⟨h, ':', _, rfl, hh.digits, hh.ne_nil, rfl⟩, hlast.of_suffix ?_⟩
    exact ⟨h ++ ':' :: (m ++ [':']), by simp⟩

theorem OffsetText.endsSolid {o : List Char} {minutes : ℤ} (h : OffsetText o minutes) :
    EndsSolid o := by
  cases h with
  | @utc c hc => exact ⟨c, by rcases hc with rfl | rfl <;> rfl, List.suffix_rfl⟩
  | @east h m _ _ hh hm =>
    exact (endsSolid_digits hm.digits hm.ne_nil).of_suffix ⟨'+' :: (h ++ [':']), by simp⟩
  | @west h m _ _ hh hm =>
    exact (endsSolid_digits hm.digits hm.ne_nil).of_suffix ⟨'-' :: (h ++ [':']), by simp⟩

theorem MomentText.shaped {cs : List Char} {m : Moment} (h : MomentText cs m) : Shaped cs := by
  cases h with
  | dateTime hd ht => exact hd.shaped.append (ht.shaped.last.of_suffix (List.suffix_cons _ _))
  | date hd => exact hd.shaped
  | time ht => exact ht.shaped
  | offset hd ht ho =>
    refine hd.shaped.append (ho.endsSolid.of_suffix ?_)
    exact (List.suffix_append _ _).trans (List.suffix_cons _ _)

/-- A number that something follows is no integer. -/
theorem integerText?_of_shaped {cs : List Char} (h : Shaped cs) : Typed.integerText? cs = none := by
  obtain ⟨ds, c, rest, rfl, hds, hne, hc⟩ := h.number
  have hnatural : natural? (ds ++ c :: rest) = none := by
    rw [Option.eq_none_iff_forall_ne_some]
    intro n hn
    obtain ⟨-, hdigits, -⟩ := natural?_eq_some_iff.mp hn
    simp [hdigits c (by simp)] at hc
  have hsign : sign (ds ++ c :: rest) = (false, ds ++ c :: rest) := by
    have hminus (cs : List Char) : ds ++ c :: rest ≠ '-' :: cs :=
      Reader.ne_cons_of_digits hds hne rfl cs
    have hplus (cs : List Char) : ds ++ c :: rest ≠ '+' :: cs :=
      Reader.ne_cons_of_digits hds hne rfl cs
    generalize ds ++ c :: rest = cs at hminus hplus
    unfold sign
    split
    · exact absurd rfl (hminus _)
    · exact absurd rfl (hplus _)
    · rfl
  rw [Typed.integerText?, integer?, hsign, hnatural]
  rfl

/-- Blanks around it do not count. -/
theorem trim_shaped {before cs after : List Char} (hbefore : ∀ d ∈ before, isBlank d = true)
    (hafter : ∀ d ∈ after, isBlank d = true) (h : Shaped cs) :
    trim (before ++ cs ++ after) = cs := by
  obtain ⟨ds, d, rest, hcs, hds, hne, -⟩ := h.number
  obtain ⟨c, front, rfl⟩ := List.exists_cons_of_ne_nil hne
  have hlast := h.last
  rw [hcs] at hlast ⊢
  exact trim_blanks hbefore hafter (Reader.isBlank_digit (hds c List.mem_cons_self)) hlast

/-! ### Readings -/

open Reader in
/-- **Each form is read as what it names**: the forms tried before it fail. -/
theorem millisOfText?_of_text {cs : List Char} {m : Moment} (h : MomentText cs m) :
    millisOfText? cs = some m.toMillis := by
  cases h with
  | @dateTime d t date clock c hd ht hc =>
    have hoffset : offsetMoment (d ++ c :: t) = none :=
      offsetMoment_of_date hd (endsDigits_cons (by rcases hc with rfl | rfl <;> rfl) _)
        (timeAndOffset_of_time ht (hc.elim (fun h => .inr (.inr h)) .inl))
    rcases hc with rfl | rfl
    · obtain ⟨raw, hraw, hmillis⟩ := dateTime_reads hd ht rfl (blanks_time ht)
      simp only [millisOfText?, whole_of_none hoffset, whole_of_some hraw]
      simp [Moment.toMillis, hmillis]
    · have hblank : dateTime blanks (d ++ 'T' :: t) = none :=
        dateTime_blanks_of_endsDigits hd (endsDigits_cons rfl _) (endsDigits_cons rfl _)
      obtain ⟨raw, hraw, hmillis⟩ := dateTime_reads hd ht rfl (char_apply 'T' t)
      simp only [millisOfText?, whole_of_none hoffset, whole_of_none hblank, whole_of_some hraw]
      simp [Moment.toMillis, hmillis]
  | @date _ date hd =>
    have hread := date_reads hd endsDigits_nil
    have hoffset : offsetMoment (cs ++ []) = none :=
      offsetMoment_of_date hd endsDigits_nil fun _ _ _ => rfl
    have hblank : dateTime blanks (cs ++ []) = none :=
      dateTime_blanks_of_endsDigits hd endsDigits_nil endsDigits_nil
    have hletter : dateTime (char 'T') (cs ++ []) = none := by
      rw [dateTime, bind_of_some hread]
      rfl
    rw [List.append_nil] at hread hoffset hblank hletter
    simp only [millisOfText?, whole_of_none hoffset, whole_of_none hblank, whole_of_none hletter,
      whole_of_some hread]
    rfl
  | time ht =>
    obtain ⟨raw, hraw, hmillis⟩ := time_reads ht
    simp only [millisOfText?, whole_of_none (offsetMoment_of_time ht),
      whole_of_none (dateTime_of_time ht _), whole_of_none (date_of_time ht), whole_of_some hraw]
    simp [Moment.toMillis, hmillis]
  | @offset d t o date clock minutes c hd ht ho hc =>
    obtain ⟨raw, hraw, hmillis⟩ := offsetMoment_reads hd hc ht ho
    have hproper := ((Date.isValid_iff _).mp hd.spec.1).2
    have hearlier := Moment.toMillis_earlier (m := ⟨date, clock⟩) hproper ht.whole ho.bounds
    simp only [millisOfText?, whole_of_some hraw, hearlier]
    simp [Moment.toMillis, hmillis]
    ring

/-- The milliseconds of the calendar are integers of 64 bits. -/
theorem Moment.toMillis_bounds {m : Moment} (hdate : m.date.isValid = true) (htime : m.time.Whole) :
    -2 ^ 63 ≤ m.toMillis ∧ m.toMillis < 2 ^ 63 := by
  obtain ⟨⟨hleast, hgreatest⟩, ⟨-, hmonth⟩, -, hday⟩ := (Date.isValid_iff _).mp hdate
  have hlt := TimeOfDay.toMillis_lt htime
  have hlength : daysInMonth m.date.year m.date.month ≤ 31 := by
    unfold daysInMonth
    split_ifs <;> decide
  simp only [Date.leastYear, Date.greatestYear] at hleast hgreatest
  have hdays : -100000000 < m.date.toDays ∧ m.date.toDays < 100000000 := by
    simp only [Date.toDays]
    split_ifs <;> omega
  rw [toMillis]
  omega

end Calendar

open Calendar

/-- A moment is found again from the integer that counts its milliseconds. -/
theorem moment_of_epochMillis {m : Moment} (hdate : m.date.isValid = true) (htime : m.time.Whole)
    {v : Value} (h : Typed.epochMillis v = .ok (Int64.ofInt m.toMillis)) :
    Typed.moment v = .ok m := by
  obtain ⟨hleast, hmost⟩ := Moment.toMillis_bounds hdate htime
  have hint : (Int64.ofInt m.toMillis).toInt = m.toMillis := Int64.toInt_ofInt_of_le hleast hmost
  have hfound := Moment.ofMillis?_toMillis hdate htime
  rw [Typed.moment, h]
  simp only [bind, Except.bind, hint, hfound]

/-- A value that is read as a moment is read as its date and as its time. -/
theorem reads_of_moment {v : Value} {m : Moment} (h : Typed.moment v = .ok m) :
    Readable.read v = .ok m ∧ Readable.read v = .ok m.date ∧ Readable.read v = .ok m.time := by
  refine ⟨h, ?_, ?_⟩
  · show (Typed.moment v).map Moment.date = _
    rw [h, Except.map]
  · show (Typed.moment v).map Moment.time = _
    rw [h, Except.map]

theorem epochMillis_of_text {before cs after : List Char} {m : Moment} (h : MomentText cs m)
    (hbefore : ∀ d ∈ before, Text.isBlank d = true) (hafter : ∀ d ∈ after, Text.isBlank d = true) :
    Typed.epochMillis (.text (String.ofList (before ++ cs ++ after))) =
      .ok (Int64.ofInt m.toMillis) := by
  simp only [Typed.epochMillis, String.toList_ofList, trim_shaped hbefore hafter h.shaped,
    integerText?_of_shaped h.shaped, millisOfText?_of_text h]

/-- **Dates and times pass through milliseconds.** A text that names a moment, with
blanks around it, is read as this moment, as its date and as its time; and so is the
integer of milliseconds that stands for the text. -/
theorem texts_read_through_millis {before cs after : List Char} {m : Moment} (h : MomentText cs m)
    (hbefore : ∀ d ∈ before, Text.isBlank d = true) (hafter : ∀ d ∈ after, Text.isBlank d = true) :
    let v := Value.text (String.ofList (before ++ cs ++ after))
    (Readable.read v = .ok m ∧ Readable.read v = .ok m.date ∧ Readable.read v = .ok m.time) ∧
      ∃ n, Typed.epochMillis v = .ok n ∧ Readable.read (.int64 n) = .ok m ∧
        Readable.read (.int64 n) = .ok m.date ∧ Readable.read (.int64 n) = .ok m.time := by
  intro v
  obtain ⟨hdate, htime⟩ := h.spec
  have hmillis : Typed.epochMillis v = .ok (Int64.ofInt m.toMillis) :=
    epochMillis_of_text h hbefore hafter
  have hint : Typed.epochMillis (.int64 (Int64.ofInt m.toMillis)) =
      .ok (Int64.ofInt m.toMillis) := rfl
  exact ⟨reads_of_moment (moment_of_epochMillis hdate htime hmillis), _, hmillis,
    reads_of_moment (moment_of_epochMillis hdate htime hint)⟩

/-- A clock one hour ahead, in the first hour of the year 0. -/
theorem text_read_in_year_before_zero :
    let v := Value.text " 0000-01-01T00:30:00.123999999+01:00\n"
    let m : Moment := ⟨⟨-1, 12, 31⟩, ⟨23, 30, 0, 123000000⟩⟩
    (Readable.read v = .ok m ∧ Readable.read v = .ok m.date ∧ Readable.read v = .ok m.time) ∧
      ∃ n, Typed.epochMillis v = .ok n ∧ Readable.read (.int64 n) = .ok m ∧
        Readable.read (.int64 n) = .ok m.date ∧ Readable.read (.int64 n) = .ok m.time := by
  have digits {cs : List Char} (h : cs.all Char.isDigit = true) : Digits cs := List.all_eq_true.mp h
  have figures {cs : List Char} (h : cs.all Char.isDigit = true) :
      Figures cs.length cs.length cs (Nat.ofDigitChars 10 cs 0) := ⟨digits h, le_rfl, le_rfl, rfl⟩
  have hyear := @figures ['0', '0', '0', '0'] rfl
  have hzero := @figures ['0', '0'] rfl
  have hone := @figures ['0', '1'] rfl
  have hthirty := @figures ['3', '0'] rfl
  have hdate := DateText.mk hyear hone hone rfl
  have hfraction := @FractionText.point ['1', '2', '3', '9', '9', '9', '9', '9', '9'] (by decide)
    (digits rfl)
  have htime := TimeText.mk hzero hthirty hzero (by decide) (by decide) (by decide) hfraction
  have hoffset := OffsetText.east hone hzero (by decide) (by decide)
  exact @texts_read_through_millis [' '] _ ['\n'] _
    (MomentText.offset hdate htime hoffset (.inl rfl)) (List.all_eq_true.mp rfl)
    (List.all_eq_true.mp rfl)

end KeyedRows
