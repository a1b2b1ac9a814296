/-
# Sets of characters given by ranges

Properties of characters are tables of closed code point ranges. `inRanges`
decides membership by halving the table.
-/

namespace KeyedRows.Text

/-- Code point `n` lies in one of the ascending ranges `t[lo], …, t[hi - 1]`.
The fuel bounds the halvings. -/
def inRangesFrom (t : Array (Nat × Nat)) (n : Nat) : Nat → Nat → Nat → Bool
  | 0, _, _ => false
  | fuel + 1, lo, hi =>
    if lo < hi then
      let mid := (lo + hi) / 2
      match t[mid]? with
      | none => false
      | some (a, b) =>
        if n < a then inRangesFrom t n fuel lo mid
        else if b < n then inRangesFrom t n fuel (mid + 1) hi
        else true
    else false

/-- Code point `n` lies in one of the ascending ranges of `t`. -/
def inRanges (t : Array (Nat × Nat)) (n : Nat) : Bool :=
  inRangesFrom t n (t.size + 1) 0 t.size

end KeyedRows.Text
