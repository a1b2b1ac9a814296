/-
# Moments

Dates, times of day and moments are all read by way of the milliseconds since
the start of 1970, which a value gives as an integer or as a text.

Key definitions: `Typed.epochMillis`, `Typed.moment`.
-/
import KeyedRows.Calendar.Reader
import KeyedRows.Typed.Basic

namespace KeyedRows

open Calendar

namespace Typed

/-- Milliseconds since the start of 1970: an integer, or a text that writes
one or names a date or a time. -/
def epochMillis : Value → Except Error Int64
  | .text s =>
    let cs := Text.trim s.toList
    match integerText? cs with
    | some n => .ok n
    | none =>
      match millisOfText? cs with
      | some n => .ok (Int64.ofInt n)
      | none => .error (.wrongText "Timestamp" s)
  | v =>
    match v.toInt64? with
    | some n => .ok n
    | none => .error (.wrongKind "Timestamp" v)

/-- The moment, if the calendar reaches it. -/
def moment (v : Value) : Except Error Moment := do
  let n ← epochMillis v
  match Moment.ofMillis? n.toInt with
  | some m => .ok m
  | none => .error (.typeMismatch "Timestamp" s!"{n.toInt} ms out of range")

end Typed

instance : Readable Moment := ⟨Typed.moment⟩
instance : Readable Date := ⟨fun v => (Typed.moment v).map Moment.date⟩
instance : Readable TimeOfDay := ⟨fun v => (Typed.moment v).map Moment.time⟩

end KeyedRows
