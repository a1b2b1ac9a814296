/-
# Typed readings

What a value reads as, when a reader wants a certain type. Numbers convert
freely, texts are read as numbers, and a null is zero, false or, for the types
that allow it, nothing.

Key definitions: `Readable`, `integer64`, `float64`, `truth`, `string`.
-/
import KeyedRows.Error
import KeyedRows.Number.Numeral
import KeyedRows.Text.Blank

namespace KeyedRows

/-- Types that values can be read as. -/
class Readable (α : Type) where
  read : Value → Except Error α

/-- A null reads as nothing. -/
instance {α : Type} [Readable α] : Readable (Option α) where
  read
    | .null => .ok none
    | v => (Readable.read v).map some

instance : Readable Value := ⟨.ok⟩

namespace Typed

/-- A 64-bit integer as a text writes it. -/
def integerText? (cs : List Char) : Option Int64 :=
  match Number.integer? cs with
  | some n =>
    if Int64.minValue.toInt ≤ n ∧ n ≤ Int64.maxValue.toInt then some (Int64.ofInt n) else none
  | none => none

/-- A floating-point number as a text writes it. -/
def floatText? (cs : List Char) : Option Float := (Number.Numeral.ofText? cs).map Number.ofNumeral

/-- A text may write an integer or any other number, of which the integer part
counts. -/
def integer64 : Value → Except Error Int64
  | .null => .ok 0
  | .bool b => .ok (if b then 1 else 0)
  | .text s =>
    let cs := Text.trim s.toList
    match integerText? cs with
    | some n => .ok n
    | none =>
      match floatText? cs with
      | some x => .ok (Number.ofFloat x).toInt64
      | none => .error (.wrongText "Int64" s)
  | v =>
    match v.truncated? with
    | some n => .ok n
    | none => .error (.wrongKind "Int64" v)

def float64 : Value → Except Error Float
  | .null => .ok 0
  | .bool b => .ok (if b then 1 else 0)
  | .text s =>
    match floatText? (Text.trim s.toList) with
    | some x => .ok x
    | none => .error (.wrongText "Float64" s)
  | v =>
    match v.toFloat? with
    | some x => .ok x
    | none => .error (.wrongKind "Float64" v)

/-- A number is true unless it is zero. -/
def truth : Value → Except Error Bool
  | .null => .ok false
  | .bool b => .ok b
  | .text s =>
    let word := String.ofList ((Text.trim s.toList).map Char.toLower)
    if word = "true" ∨ word = "1" then .ok true
    else if word = "false" ∨ word = "0" then .ok false
    else .error (.wrongKind "Bool" (.text s))
  | v =>
    match v.toFloat? with
    | some x => .ok (x != 0)
    | none => .error (.wrongKind "Bool" v)

/-- Every value but a null has a text. -/
def string : Value → Except Error String
  | .null => .error (.wrongKind "Text" .null)
  | .text s => .ok s
  | v => .ok (String.ofList v.shown)

end Typed

instance : Readable Int64 := ⟨Typed.integer64⟩

/-- The lowest bits of the 64-bit integer. -/
instance : Readable Int32 := ⟨fun v => (Typed.integer64 v).map Int64.toInt32⟩

/-- The lowest bits of the 64-bit integer. -/
instance : Readable Int16 := ⟨fun v => (Typed.integer64 v).map Int64.toInt16⟩

/-- The lowest bits of the 64-bit integer. -/
instance : Readable Int8 := ⟨fun v => (Typed.integer64 v).map Int64.toInt8⟩

instance : Readable Float := ⟨Typed.float64⟩

/-- The 32-bit number nearest to the 64-bit one. -/
instance : Readable Float32 := ⟨fun v => (Typed.float64 v).map Number.narrow⟩

instance : Readable Bool := ⟨Typed.truth⟩

instance : Readable String := ⟨Typed.string⟩

end KeyedRows
