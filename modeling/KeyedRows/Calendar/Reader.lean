/-
# Dates and times in texts

The accepted forms, tried in this order: a moment with its offset from
universal time, a date and a time with a blank or a `T` between them, a date
alone (its midnight), and a time alone (of the first day of 1970).

The parts of a form without an offset are numbers of limited width that may
have blanks before them; a sign lifts the width of the year. The parts of a
form with an offset have their exact width. A second may have a fraction, and
a second of 60 is the one after the 59th.

Key definitions: `Reader`, `offsetMoment`, `dateTime`, `millisOfText?`.
-/
import KeyedRows.Calendar.Moment
import KeyedRows.Number.Numeral
import KeyedRows.Text.Blank

namespace KeyedRows.Calendar

/-- Takes a value off the front of a text. -/
abbrev Reader := StateT (List Char) Option

namespace Reader

/-- The value of a reader that takes the whole text. -/
def whole {α : Type} (r : Reader α) (cs : List Char) : Option α :=
  match r cs with
  | some (a, []) => some a
  | _ => none

/-- This character. -/
def char (c : Char) : Reader Unit
  | [] => none
  | d :: cs => if d = c then some ((), cs) else none

/-- From `least` to `most` digits, as many as there are. -/
def number (least most : Nat) : Reader Nat := fun cs =>
  let digits := (cs.take most).takeWhile Char.isDigit
  if digits.length < least then none
  else some (Number.digitsOnto 0 digits, cs.drop digits.length)

/-- The blanks in front, if any. -/
def blanks : Reader Unit := fun cs => some ((), Text.trimStart cs)

/-- One or two digits after blanks. -/
def field : Reader Nat := do
  blanks
  number 1 2

/-- Up to four digits, or a sign and any number of them, after blanks. -/
def year : Reader Int := do
  blanks
  match ← get with
  | '-' :: cs => set cs; return -((← number 1 cs.length : Nat) : Int)
  | '+' :: cs => set cs; return ((← number 1 cs.length : Nat) : Int)
  | _ => return ((← number 1 4 : Nat) : Int)

/-- A point and the digits after it, as nanoseconds; the tenth digit and
those after it do not count. -/
def fraction : Reader Nat := do
  match ← get with
  | '.' :: cs =>
    set cs
    let n ← number 1 9
    let digits := cs.length - (← get).length
    modify (·.dropWhile Char.isDigit)
    return n * Nat.pow 10 (9 - digits)
  | _ => return 0

/-- The day of the calendar, if it is one. -/
def checkDate (y : Int) (m d : Nat) : Reader Date :=
  if (Date.mk y m d).isValid then pure ⟨y, m, d⟩ else failure

/-- The time of day, if it is one; second 60 is the leap second after 59. -/
def checkTime (h m s n : Nat) : Reader TimeOfDay :=
  if 23 < h ∨ 59 < m ∨ 60 < s then failure
  else if s = 60 then pure ⟨h, m, 59, n + 1000000000⟩
  else pure ⟨h, m, s, n⟩

def date : Reader Date := do
  let y ← year
  char '-'
  let m ← field
  char '-'
  checkDate y m (← field)

def time : Reader TimeOfDay := do
  let h ← field
  char ':'
  let m ← field
  char ':'
  let s ← field
  checkTime h m s (← fraction)

/-- A date and a time with `separator` between them. -/
def dateTime (separator : Reader Unit) : Reader Moment := do
  let d ← date
  separator
  return ⟨d, ← time⟩

/-- The offset from universal time in seconds: `Z`, or a sign, hours and
minutes, less than a day in all. The sign may be the minus of typography. -/
def offset : Reader Int := do
  match ← get with
  | 'Z' :: cs | 'z' :: cs => set cs; return 0
  | c :: cs =>
    if c = '+' ∨ c = '-' ∨ c = '\u2212' then
      set cs
      let h ← number 2 2
      char ':'
      let m ← number 2 2
      if 23 < h ∨ 59 < m then failure
      let seconds : Int := (h * 60 + m) * 60
      return if c = '+' then seconds else -seconds
    else failure
  | [] => failure

/-- A local moment in exact widths and its offset in seconds. -/
def offsetMoment : Reader (Moment × Int) := do
  let y ← number 4 4
  char '-'
  let m ← number 2 2
  char '-'
  let d ← number 2 2
  match ← get with
  | c :: cs => if c = 'T' ∨ c = 't' ∨ c = ' ' then set cs else failure
  | [] => failure
  let h ← number 2 2
  char ':'
  let min ← number 2 2
  char ':'
  let s ← number 2 2
  let n ← fraction
  let o ← offset
  return (⟨← checkDate y m d, ← checkTime h min s n⟩, o)

end Reader

open Reader in
/-- The milliseconds since 1970 that a text names in one of the accepted forms. -/
def millisOfText? (cs : List Char) : Option Int :=
  (offsetMoment.whole cs).map (fun (m, o) => m.toMillis - o * 1000)
    <|> ((dateTime blanks).whole cs).map Moment.toMillis
    <|> ((dateTime (char 'T')).whole cs).map Moment.toMillis
    <|> (date.whole cs).map (fun d => (Moment.mk d .midnight).toMillis)
    <|> (time.whole cs).map (fun t => (Moment.mk .epoch t).toMillis)

end KeyedRows.Calendar
