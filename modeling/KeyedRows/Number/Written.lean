/-
# Written floating-point numbers

Two ways of writing a floating-point number by its shortest decimal: plainly,
without a power of ten; and described, with at least one decimal and with a
power of ten where the number is very small or very large.

Key definitions: `positional`, `scientific`, `plain`, `described`.
-/
import KeyedRows.Number.Shortest

namespace KeyedRows.Number

/-- The digits of a natural number. -/
def digitsOf (n : Nat) : List Char := Nat.toDigits 10 n

/-- Digits with the point in front of the `point`-th of them, filled up with
zeros, and with at least `decimals` digits after the point. -/
def positional (digits : List Char) (point : Int) (decimals : Nat) : List Char :=
  let zeros (n : Nat) := List.replicate n '0'
  if point ≤ 0 then
    '0' :: '.' :: zeros (-point).toNat ++ digits
  else if digits.length ≤ point.toNat then
    digits ++ zeros (point.toNat - digits.length) ++
      (if decimals = 0 then [] else '.' :: zeros decimals)
  else
    digits.take point.toNat ++ '.' :: digits.drop point.toNat

/-- One digit, the others after a point, and the power of ten. -/
def scientific (digits : List Char) (power : Int) : List Char :=
  let mantissa := match digits with
    | d :: rest@(_ :: _) => d :: '.' :: rest
    | digits => digits
  mantissa ++ 'e' :: (toString power).toList

/-- How numbers are written: the least count of decimals, and from which
powers of ten on a number is written with one. -/
structure Style where
  decimals : Nat
  usesPower : Int → Bool

/-- Without a power of ten and without a needless point. -/
def Style.plain : Style := ⟨0, fun _ => false⟩

/-- With a power of ten below `10 ^ -4` and from `10 ^ 16` on, otherwise with
at least one decimal. -/
def Style.described : Style := ⟨1, fun p => p < -4 || 16 ≤ p⟩

/-- A number in a style. -/
def Style.write (s : Style) (f : Format) : Binary → List Char
  | .nan => "NaN".toList
  | .infinite negative => (if negative then "-inf" else "inf").toList
  | .finite negative m e =>
    let body :=
      if m = 0 then positional ['0'] 1 s.decimals
      else
        let d := shortest f m e
        let digits := digitsOf d.digits
        let power := d.exponent + digits.length - 1
        if s.usesPower power then scientific digits power
        else positional digits (power + 1) s.decimals
    if negative then '-' :: body else body

end KeyedRows.Number
