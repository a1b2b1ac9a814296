/-
# Binary floating point

Binary interchange formats in exact integer arithmetic: what a bit pattern
means, and the bit pattern nearest to a quotient, ties to the even one.

Key definitions: `Binary`, `Format.decode`, `Format.encode`, `widen`,
`ofInteger`, `truncate`.
-/
import KeyedRows.Number.Numeral

namespace KeyedRows.Number

/-- What a bit pattern means: no number, an infinity, or
`significand · 2 ^ exponent` with a sign. -/
inductive Binary where
  | nan
  | infinite (negative : Bool)
  | finite (negative : Bool) (significand : Nat) (exponent : Int)
deriving DecidableEq

/-- A format: how many significant bits, the leading one included, and how
many bits of exponent. -/
structure Format where
  precision : Nat
  exponentBits : Nat

namespace Format

def binary64 : Format := ⟨53, 11⟩
def binary32 : Format := ⟨24, 8⟩

/-- Patterns with this exponent field are infinite or no numbers. -/
def topField (f : Format) : Nat := Nat.pow 2 f.exponentBits - 1

/-- The exponent of the last bit of the smallest numbers. -/
def leastExponent (f : Format) : Int := 3 - (Nat.pow 2 (f.exponentBits - 1) : Nat) - (f.precision : Int)

/-- The weight of the exponent field in a pattern. -/
def fieldUnit (f : Format) : Nat := Nat.pow 2 (f.precision - 1)

/-- The weight of the sign bit in a pattern. -/
def signUnit (f : Format) : Nat := Nat.pow 2 (f.exponentBits + f.precision - 1)

/-- The meaning of a bit pattern. -/
def decode (f : Format) (bits : Nat) : Binary :=
  let negative := bits / f.signUnit % 2 = 1
  let field := bits / f.fieldUnit % Nat.pow 2 f.exponentBits
  let fraction := bits % f.fieldUnit
  if field = f.topField then
    if fraction = 0 then .infinite negative else .nan
  else if field = 0 then .finite negative fraction f.leastExponent
  else .finite negative (fraction + f.fieldUnit) (f.leastExponent + (field - 1 : Nat))

/-- The largest `k` with `2 ^ k ≤ num / den`, for positive numbers. -/
def log2 (num den : Nat) : Int :=
  let k : Int := (num.log2 : Int) - (den.log2 : Int)
  let reached := if 0 ≤ k then den * Nat.pow 2 k.toNat ≤ num else den ≤ num * Nat.pow 2 (-k).toNat
  if reached then k else k - 1

/-- The quotient, a half going to the even neighbour. -/
def roundHalfEven (num den : Nat) : Nat :=
  let q := num / den
  let r := num % den
  if 2 * r > den ∨ (2 * r = den ∧ q % 2 = 1) then q + 1 else q

/-- The pattern of the non-negative number nearest to `num / den`. -/
def magnitude (f : Format) (num den : Nat) : Nat :=
  if num = 0 then 0
  else
    let e := max f.leastExponent (log2 num den - (f.precision - 1 : Nat))
    let q := if 0 ≤ e then roundHalfEven num (den * Nat.pow 2 e.toNat)
      else roundHalfEven (num * Nat.pow 2 (-e).toNat) den
    min ((e - f.leastExponent).toNat * f.fieldUnit + q) (f.topField * f.fieldUnit)

/-- The pattern nearest to a value. -/
def encode (f : Format) : Binary → Nat
  | .nan => f.topField * f.fieldUnit + f.fieldUnit / 2
  | .infinite negative => (if negative then f.signUnit else 0) + f.topField * f.fieldUnit
  | .finite negative m e =>
    (if negative then f.signUnit else 0) +
      (if 0 ≤ e then f.magnitude (m * Nat.pow 2 e.toNat) 1 else f.magnitude m (Nat.pow 2 (-e).toNat))

/-- The pattern nearest to a written number. Powers of ten beyond every
format are not computed. -/
def ofNumeral (f : Format) : Numeral → Nat
  | .nan => f.encode .nan
  | .infinite negative => f.encode (.infinite negative)
  | .decimal negative digits exponent =>
    let order := ((Nat.toDigits 10 digits).length : Int) + exponent
    let base := if negative then f.signUnit else 0
    if digits = 0 ∨ order < -400 then base
    else if 400 < order then f.encode (.infinite negative)
    else if 0 ≤ exponent then base + f.magnitude (digits * Nat.pow 10 exponent.toNat) 1
    else base + f.magnitude digits (Nat.pow 10 (-exponent).toNat)

end Format

/-- What a 64-bit number means. -/
def ofFloat (x : Float) : Binary := Format.binary64.decode x.toBits.toNat

/-- What a 32-bit number means. -/
def ofFloat32 (x : Float32) : Binary := Format.binary32.decode x.toBits.toNat

/-- The 64-bit number nearest to a value. -/
def toFloat (b : Binary) : Float := Float.ofBits (UInt64.ofNat (Format.binary64.encode b))

/-- The 32-bit number nearest to a value. -/
def toFloat32 (b : Binary) : Float32 := Float32.ofBits (UInt32.ofNat (Format.binary32.encode b))

/-- The 64-bit number equal to a 32-bit one. -/
def widen (x : Float32) : Float := toFloat (ofFloat32 x)

/-- The 32-bit number nearest to a 64-bit one. -/
def narrow (x : Float) : Float32 := toFloat32 (ofFloat x)

/-- The 64-bit number nearest to an integer. -/
def ofInteger (n : Int) : Float := toFloat (.finite (n < 0) n.natAbs 0)

/-- The 64-bit number nearest to a written one. -/
def ofNumeral (n : Numeral) : Float := Float.ofBits (UInt64.ofNat (Format.binary64.ofNumeral n))

/-- The integer part, with the fraction dropped, and nothing for what is no
number. -/
def Binary.truncate? : Binary → Option Int
  | .finite negative m e =>
    let n := if 0 ≤ e then m * Nat.pow 2 e.toNat else m / Nat.pow 2 (-e).toNat
    some (if negative then -(n : Int) else n)
  | _ => none

/-- The integer part within 64 bits: the bound nearest to what lies outside,
and zero for what is no number. -/
def Binary.toInt64 : Binary → Int64
  | .nan => 0
  | .infinite negative => if negative then Int64.minValue else Int64.maxValue
  | b => Int64.ofInt (max Int64.minValue.toInt (min Int64.maxValue.toInt (b.truncate?.getD 0)))

end KeyedRows.Number
