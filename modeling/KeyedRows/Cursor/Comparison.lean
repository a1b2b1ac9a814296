/-
# Comparing rows with bounds

The tests of a HAVING clause: the value under a label, read as a type, stands
in a relation to a bound of that type, or the number of the row does.

Key definitions: `Relation`, `Comparable`, `RowTest.compares`,
`RowTest.rowNumber`, `RowTest.isNull`.
-/
import KeyedRows.Cursor.Filtered

namespace KeyedRows

inductive Relation where
  | less
  | lessOrEqual
  | greater
  | greaterOrEqual
  | equal
  | different
deriving DecidableEq

/-- The relation holds of two values that compare so, or not at all. -/
def Relation.holds : Relation → Option Ordering → Bool
  | .less, o => o == some .lt
  | .lessOrEqual, o => o == some .lt || o == some .eq
  | .greater, o => o == some .gt
  | .greaterOrEqual, o => o == some .gt || o == some .eq
  | .equal, o => o == some .eq
  | .different, o => o != some .eq

/-- Numbers compare unless one of them is none. -/
def compareFloats (x y : Float) : Option Ordering :=
  if x < y then some .lt else if y < x then some .gt else if x == y then some .eq else none

/-- A missing text comes before every other. -/
def compareTexts : Option String → Option String → Ordering
  | none, none => .eq
  | none, some _ => .lt
  | some _, none => .gt
  | some a, some b => compare a b

/-- The types as which values are compared. -/
inductive Comparable where
  | integer
  | float
  | truth
  | text
deriving DecidableEq

/-- Two values, read as a type and compared. -/
def Comparable.compare (a b : Value) : Comparable → Except Error (Option Ordering)
  | .integer => do
    let x : Int64 ← Readable.read a
    let y : Int64 ← Readable.read b
    return some (Ord.compare x y)
  | .float => do
    let x : Float ← Readable.read a
    let y : Float ← Readable.read b
    return compareFloats x y
  | .truth => do
    let x : Bool ← Readable.read a
    let y : Bool ← Readable.read b
    return some (Ord.compare x y)
  | .text => do
    let x : Option String ← Readable.read a
    let y : Option String ← Readable.read b
    return some (compareTexts x y)

namespace RowTest

/-- The value under a label stands in the relation to the bound. -/
def compares (type : Comparable) (label : String) (r : Relation) (bound : Value) : RowTest :=
  .value label fun v => .answer ((type.compare v bound).map r.holds)

/-- The number of the row stands in the relation to the bound. -/
def rowNumber (r : Relation) (bound : Int) : RowTest :=
  .row fun n => const (r.holds (some (Ord.compare (n : Int) bound)))

/-- The value under a label is null. -/
def isNull (label : String) : RowTest := .value label fun v => const v.isNull

end RowTest
end KeyedRows
