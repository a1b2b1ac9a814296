/-
# Dates, times of day and moments

The Gregorian calendar, continued in both directions, and the count of
milliseconds from the start of 1970. A year is shifted to begin in March, so
that the leap day is its last; 400 years make an era of 146097 days.

Key definitions: `Date`, `TimeOfDay`, `Moment`, `Date.toDays`, `Date.ofDays`,
`Moment.toMillis`, `Moment.ofMillis?`.
-/

namespace KeyedRows.Calendar

structure Date where
  year : Int
  month : Nat
  day : Nat
deriving DecidableEq, Repr

/-- A second of 59 with a nanosecond of `10 ^ 9` or more is a leap second. -/
structure TimeOfDay where
  hour : Nat
  minute : Nat
  second : Nat
  nanosecond : Nat
deriving DecidableEq, Repr

structure Moment where
  date : Date
  time : TimeOfDay
deriving DecidableEq, Repr

def isLeapYear (y : Int) : Bool := y % 4 == 0 && (y % 100 != 0 || y % 400 == 0)

def daysInMonth (y : Int) (m : Nat) : Nat :=
  if m = 2 then (if isLeapYear y then 29 else 28)
  else if m = 4 ∨ m = 6 ∨ m = 9 ∨ m = 11 then 30
  else 31

/-- The years of the calendar. -/
def Date.leastYear : Int := -262143
def Date.greatestYear : Int := 262142

namespace Date

/-- A day of the calendar. -/
def isValid (d : Date) : Bool :=
  leastYear ≤ d.year && d.year ≤ greatestYear && 1 ≤ d.month && d.month ≤ 12 &&
    1 ≤ d.day && d.day ≤ daysInMonth d.year d.month

/-- The first day of 1970. -/
def epoch : Date := ⟨1970, 1, 1⟩

/-- Days from the epoch to a day. -/
def toDays (d : Date) : Int :=
  let y := if d.month ≤ 2 then d.year - 1 else d.year
  let era := y / 400
  let yearOfEra := y % 400
  let month : Int := (d.month + 9) % 12
  let dayOfYear := (153 * month + 2) / 5 + d.day - 1
  let dayOfEra := 365 * yearOfEra + yearOfEra / 4 - yearOfEra / 100 + dayOfYear
  era * 146097 + dayOfEra - 719468

/-- The day a count of days after the epoch. -/
def ofDays (n : Int) : Date :=
  let z := n + 719468
  let era := z / 146097
  let dayOfEra := z % 146097
  let yearOfEra := (dayOfEra - dayOfEra / 1460 + dayOfEra / 36524 - dayOfEra / 146096) / 365
  let dayOfYear := dayOfEra - (365 * yearOfEra + yearOfEra / 4 - yearOfEra / 100)
  let month := (5 * dayOfYear + 2) / 153
  let day := dayOfYear - (153 * month + 2) / 5 + 1
  let y := era * 400 + yearOfEra
  if month < 10 then ⟨y, (month + 3).toNat, day.toNat⟩
  else ⟨y + 1, (month - 9).toNat, day.toNat⟩

end Date

namespace TimeOfDay

def midnight : TimeOfDay := ⟨0, 0, 0, 0⟩

/-- Milliseconds since midnight, a fraction of one dropped. -/
def toMillis (t : TimeOfDay) : Nat :=
  ((t.hour * 60 + t.minute) * 60 + t.second) * 1000 + t.nanosecond / 1000000

/-- The time a count of milliseconds after midnight. -/
def ofMillis (n : Nat) : TimeOfDay :=
  ⟨n / 3600000, n / 60000 % 60, n / 1000 % 60, n % 1000 * 1000000⟩

end TimeOfDay

namespace Moment

/-- Milliseconds since the start of 1970. -/
def toMillis (m : Moment) : Int := m.date.toDays * 86400000 + m.time.toMillis

/-- The moment a count of milliseconds after the start of 1970, if the
calendar reaches it. -/
def ofMillis? (n : Int) : Option Moment :=
  let date := Date.ofDays (n / 86400000)
  if date.isValid then some ⟨date, .ofMillis (n % 86400000).toNat⟩ else none

end Moment
end KeyedRows.Calendar
