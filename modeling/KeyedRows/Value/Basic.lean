/-
# Values

What a field holds: nothing, a truth value, a number of one of six widths, a
text, bytes, or a list or a map of values.

Key definitions: `Value`, `Kind`, `toInt64?`, `truncated?`, `toFloat?`,
`normalized`, `eqBy`, `equal`.
Key theorem: `eqBy_iff`: comparing part by part, floats included, is equality.
-/
import KeyedRows.Number.Binary

namespace KeyedRows

/-- The entries of a map stand in ascending order of their names. -/
inductive Value where
  | null
  | bool (b : Bool)
  | int8 (n : Int8)
  | int16 (n : Int16)
  | int32 (n : Int32)
  | int64 (n : Int64)
  | float32 (x : Float32)
  | float64 (x : Float)
  | text (s : String)
  | bytes (bs : List UInt8)
  | list (items : List Value)
  | map (entries : List (String × Value))
deriving Inhabited

/-- The kinds of values. -/
inductive Kind where
  | null
  | bool
  | int8
  | int16
  | int32
  | int64
  | float32
  | float64
  | text
  | bytes
  | list
  | map
deriving DecidableEq

def Kind.name : Kind → String
  | .null => "Null"
  | .bool => "Bool"
  | .int8 => "Int8"
  | .int16 => "Int16"
  | .int32 => "Int32"
  | .int64 => "Int64"
  | .float32 => "Float32"
  | .float64 => "Float64"
  | .text => "Text"
  | .bytes => "Bytes"
  | .list => "List"
  | .map => "Map"

namespace Value

def kind : Value → Kind
  | .null => .null
  | .bool _ => .bool
  | .int8 _ => .int8
  | .int16 _ => .int16
  | .int32 _ => .int32
  | .int64 _ => .int64
  | .float32 _ => .float32
  | .float64 _ => .float64
  | .text _ => .text
  | .bytes _ => .bytes
  | .list _ => .list
  | .map _ => .map

def isNull : Value → Bool
  | .null => true
  | _ => false

/-- An integer of any width. -/
def toInt64? : Value → Option Int64
  | .int8 n => some n.toInt64
  | .int16 n => some n.toInt64
  | .int32 n => some n.toInt64
  | .int64 n => some n
  | _ => none

/-- A number as an integer: of a floating-point number the integer part,
within 64 bits. -/
def truncated? : Value → Option Int64
  | .float32 x => some (Number.ofFloat32 x).toInt64
  | .float64 x => some (Number.ofFloat x).toInt64
  | v => v.toInt64?

/-- A number as a 64-bit floating-point number. -/
def toFloat? : Value → Option Float
  | .float32 x => some (Number.widen x)
  | .float64 x => some x
  | v => v.toInt64?.map fun n => Number.ofInteger n.toInt

def isNumeric (v : Value) : Bool := v.toFloat?.isSome

/-! ### Normal form

A store keeps one width of integers and one of floating-point numbers. -/

mutual

/-- Every number in its widest form, at every depth. -/
def normalized : Value → Value
  | .int8 n => .int64 n.toInt64
  | .int16 n => .int64 n.toInt64
  | .int32 n => .int64 n.toInt64
  | .float32 x => .float64 (Number.widen x)
  | .list items => .list (normalizedItems items)
  | .map entries => .map (normalizedEntries entries)
  | .null => .null
  | .bool b => .bool b
  | .int64 n => .int64 n
  | .float64 x => .float64 x
  | .text s => .text s
  | .bytes bs => .bytes bs

def normalizedItems : List Value → List Value
  | [] => []
  | v :: vs => normalized v :: normalizedItems vs

def normalizedEntries : List (String × Value) → List (String × Value)
  | [] => []
  | (n, v) :: es => (n, normalized v) :: normalizedEntries es

end

/-! ### Equality -/

section

variable (same32 : Float32 → Float32 → Bool) (same64 : Float → Float → Bool)

mutual

/-- Two values of one kind, equal part by part, with these tests for
floating-point numbers. -/
def eqBy : Value → Value → Bool
  | .null, .null => true
  | .bool a, .bool b => a == b
  | .int8 a, .int8 b => a == b
  | .int16 a, .int16 b => a == b
  | .int32 a, .int32 b => a == b
  | .int64 a, .int64 b => a == b
  | .float32 a, .float32 b => same32 a b
  | .float64 a, .float64 b => same64 a b
  | .text a, .text b => a == b
  | .bytes a, .bytes b => a == b
  | .list a, .list b => itemsEqBy a b
  | .map a, .map b => entriesEqBy a b
  | _, _ => false

def itemsEqBy : List Value → List Value → Bool
  | [], [] => true
  | a :: as, b :: bs => eqBy a b && itemsEqBy as bs
  | _, _ => false

def entriesEqBy : List (String × Value) → List (String × Value) → Bool
  | [], [] => true
  | (m, a) :: as, (n, b) :: bs => m == n && eqBy a b && entriesEqBy as bs
  | _, _ => false

end

variable {same32 same64}

mutual

theorem eqBy_iff (h32 : ∀ a b, same32 a b = true ↔ a = b) (h64 : ∀ a b, same64 a b = true ↔ a = b) :
    ∀ a b : Value, eqBy same32 same64 a b = true ↔ a = b
  | .list a, b => by
    cases b <;> simp [eqBy]
    exact itemsEqBy_iff h32 h64 a _
  | .map a, b => by
    cases b <;> simp [eqBy]
    exact entriesEqBy_iff h32 h64 a _
  | .null, b | .bool _, b | .int8 _, b | .int16 _, b | .int32 _, b | .int64 _, b
  | .float32 _, b | .float64 _, b | .text _, b | .bytes _, b => by
    cases b <;> simp [eqBy, h32, h64]

theorem itemsEqBy_iff (h32 : ∀ a b, same32 a b = true ↔ a = b)
    (h64 : ∀ a b, same64 a b = true ↔ a = b) :
    ∀ a b : List Value, itemsEqBy same32 same64 a b = true ↔ a = b
  | [], b => by cases b <;> simp [itemsEqBy]
  | a :: as, [] => by simp [itemsEqBy]
  | a :: as, b :: bs => by simp [itemsEqBy, eqBy_iff h32 h64 a b, itemsEqBy_iff h32 h64 as bs]

theorem entriesEqBy_iff (h32 : ∀ a b, same32 a b = true ↔ a = b)
    (h64 : ∀ a b, same64 a b = true ↔ a = b) :
    ∀ a b : List (String × Value), entriesEqBy same32 same64 a b = true ↔ a = b
  | [], b => by cases b <;> simp [entriesEqBy]
  | (m, a) :: as, [] => by simp [entriesEqBy]
  | (m, a) :: as, (n, b) :: bs => by
    simp [entriesEqBy, eqBy_iff h32 h64 a b, entriesEqBy_iff h32 h64 as bs, and_assoc]

end

end

instance : DecidableEq Value := fun a b =>
  decidable_of_iff (eqBy (fun a b => decide (a = b)) (fun a b => decide (a = b)) a b = true)
    (eqBy_iff (by simp) (by simp) a b)

/-- Equality as numbers compare: what is no number differs from itself, and
the two zeros are equal. -/
def equal (a b : Value) : Bool := eqBy (· == ·) (· == ·) a b

end Value
end KeyedRows
