/-
# Numbers as bytes

A number in a fixed count of bytes, the most significant first.

Key definitions: `bigEndian`, `ofBigEndian`.
-/

namespace KeyedRows.Number

/-- The lowest `count` bytes of `n`, the most significant first. -/
def bigEndian : Nat → Nat → List UInt8
  | 0, _ => []
  | count + 1, n => UInt8.ofNat (n / Nat.pow 256 count) :: bigEndian count n

/-- The number that bytes write, the most significant first. -/
def ofBigEndian (bytes : List UInt8) : Nat := bytes.foldl (fun n b => 256 * n + b.toNat) 0

@[simp] theorem length_bigEndian (count n : Nat) : (bigEndian count n).length = count := by
  induction count with
  | zero => rfl
  | succ k ih => simp [bigEndian, ih]

end KeyedRows.Number
