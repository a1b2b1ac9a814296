/-
# Shortest decimals

The decimal with the fewest digits that rounds back to a binary number and,
of these, the one nearest to it; of two equally near, the larger.

The numbers that round to `m · 2 ^ e` form an interval around it, ends
included when `m` is even. For ever finer powers of ten the two neighbours of
the number on that decimal grid are tried; the first grid with a hit wins.

Key definitions: `Interval`, `Decimal`, `shortest`.
-/
import KeyedRows.Number.Binary

namespace KeyedRows.Number

/-- `digits · 10 ^ exponent`. -/
structure Decimal where
  digits : Nat
  exponent : Int
deriving DecidableEq

/-- The number `mid · 2 ^ unit` and the ends of the numbers that round to it,
in the same unit. -/
structure Interval where
  low : Nat
  mid : Nat
  high : Nat
  unit : Int
  closed : Bool

/-- The interval of `m · 2 ^ e`. Where the exponent changes at `m`, the
numbers below lie closer together. -/
def interval (f : Format) (m : Nat) (e : Int) : Interval where
  low := if m = f.fieldUnit ∧ f.leastExponent < e then 4 * m - 1 else 4 * m - 2
  mid := 4 * m
  high := 4 * m + 2
  unit := e - 2
  closed := m % 2 = 0

namespace Interval

/-- `n · 2 ^ unit` as a multiple of `10 ^ k`: the quotient is a number of
grid steps. -/
def scaled (i : Interval) (k : Int) (n : Nat) : Nat :=
  n * (if 0 ≤ i.unit then Nat.pow 2 i.unit.toNat else 1) * (if 0 ≤ k then 1 else Nat.pow 10 (-k).toNat)

/-- The denominator that goes with `scaled`. -/
def scale (i : Interval) (k : Int) : Nat :=
  (if 0 ≤ i.unit then 1 else Nat.pow 2 (-i.unit).toNat) * (if 0 ≤ k then Nat.pow 10 k.toNat else 1)

/-- `t · 10 ^ k` lies in the interval. -/
def holds (i : Interval) (k : Int) (t : Nat) : Bool :=
  let x := t * i.scale k
  let low := i.scaled k i.low
  let high := i.scaled k i.high
  if i.closed then low ≤ x && x ≤ high else low < x && x < high

/-- The better of the two neighbours on the grid of `10 ^ k`, if one lies in
the interval. -/
def onGrid? (i : Interval) (k : Int) : Option Nat :=
  let below := i.scaled k i.mid / i.scale k
  let rest := i.scaled k i.mid % i.scale k
  let down := below != 0 && i.holds k below
  let up := i.holds k (below + 1)
  if up && (!down || i.scale k ≤ 2 * rest) then some (below + 1)
  else if down then some below
  else none

/-- The first hit on the grids of `10 ^ k`, `10 ^ (k - 1)`, …. -/
def search (i : Interval) : Nat → Int → Decimal
  | 0, k => ⟨i.scaled k i.mid / i.scale k, k⟩
  | tries + 1, k =>
    match i.onGrid? k with
    | some t => ⟨t, k⟩
    | none => i.search tries (k - 1)

end Interval

/-- The shortest decimal of `m · 2 ^ e`, for a positive `m`. The first grid is
coarser than the number; 17 digits always suffice. -/
def shortest (f : Format) (m : Nat) (e : Int) : Decimal :=
  let bits : Int := (m.log2 : Int) + e + 2
  (interval f m e).search 21 (bits * 30103 / 100000 + 1)

end KeyedRows.Number
