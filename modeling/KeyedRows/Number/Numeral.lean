/-
# Written numbers

Numbers as texts write them, before any rounding: an optional sign, then
digits, with a point and a power of ten where a fraction is allowed.

Key definitions: `natural?`, `integer?`, `Numeral`, `Numeral.ofText?`.
-/

namespace KeyedRows.Number

/-- The number a list of digits writes, after the digits of `n`. -/
def digitsOnto (n : Nat) : List Char → Nat
  | [] => n
  | c :: cs => digitsOnto (10 * n + (c.toNat - 48)) cs

/-- One digit or more. -/
def natural? (cs : List Char) : Option Nat :=
  if cs.isEmpty || !cs.all Char.isDigit then none else some (digitsOnto 0 cs)

/-- A sign, if there is one, and whether it is a minus. -/
def sign : List Char → Bool × List Char
  | '-' :: cs => (true, cs)
  | '+' :: cs => (false, cs)
  | cs => (false, cs)

/-- An optional sign and one digit or more. -/
def integer? (cs : List Char) : Option Int :=
  (natural? (sign cs).2).map fun n => if (sign cs).1 then -(n : Int) else n

/-- A written number: a word for a special value, or `digits · 10 ^ exponent`
with a sign. -/
inductive Numeral where
  | nan
  | infinite (negative : Bool)
  | decimal (negative : Bool) (digits : Nat) (exponent : Int)
deriving DecidableEq

/-- The power of ten after a mantissa: nothing, or `e` and an integer. -/
def power? : List Char → Option Int
  | [] => some 0
  | c :: cs => if c = 'e' ∨ c = 'E' then integer? cs else none

/-- Digits with at most one point among them, at least one digit, and a power
of ten if one is given. -/
def decimal? (negative : Bool) (cs : List Char) : Option Numeral :=
  let whole := cs.takeWhile Char.isDigit
  let rest := cs.dropWhile Char.isDigit
  let (fraction, rest) := match rest with
    | '.' :: cs => (cs.takeWhile Char.isDigit, cs.dropWhile Char.isDigit)
    | cs => ([], cs)
  if whole.isEmpty && fraction.isEmpty then none
  else (power? rest).map fun p =>
    .decimal negative (digitsOnto (digitsOnto 0 whole) fraction) (p - fraction.length)

/-- The number a text writes; the words for infinity and for no number are
read in any letter case. -/
def Numeral.ofText? (cs : List Char) : Option Numeral :=
  let (negative, rest) := sign cs
  let word := String.ofList (rest.map Char.toLower)
  if word = "nan" then some .nan
  else if word = "inf" ∨ word = "infinity" then some (.infinite negative)
  else decimal? negative rest

end KeyedRows.Number
