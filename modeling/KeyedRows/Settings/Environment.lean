/-
# Settings from the environment

Four variables override settings, in a fixed order, so that of several faults
the first is reported.

Key definition: `Settings.applyEnvironment`.
-/
import KeyedRows.Number.Numeral
import KeyedRows.Settings.Basic

namespace KeyedRows.Settings

def spaceVariable : String := "KVSQL_NAMESPACE"
def keyColumnVariable : String := "KVSQL_PRIMARY_KEY"
def sampleLimitVariable : String := "KVSQL_SAMPLE_LIMIT"
def specialVariable : String := "KVSQL_SPECIAL_FIELDS"

/-- A count in 64 bits; a plus may stand before it and blanks around it. -/
def count? (text : String) : Option UInt64 :=
  let digits := match Text.trim text.toList with
    | '+' :: cs => cs
    | cs => cs
  match Number.natural? digits with
  | some n => if n < UInt64.size then some (UInt64.ofNat n) else none
  | none => none

/-- The value of a variable put to use, if the variable is set. -/
def override (set : Option String) (apply : String → Settings → Except Error Settings)
    (s : Settings) : Except Error Settings :=
  match set with
  | some text => apply text s
  | none => .ok s

/-- The settings as the variables change them. -/
def applyEnvironment (s : Settings) (lookup : String → Option String) : Except Error Settings := do
  let s ← override (lookup spaceVariable) (fun text s => .ok { s with space := text }) s
  let s ← override (lookup keyColumnVariable) (fun text s => .ok { s with keyColumn := text }) s
  let s ← override (lookup sampleLimitVariable) (fun text s =>
    match count? text with
    | some n => .ok { s with sampleLimit := n }
    | none => .error (.settings s!"{sampleLimitVariable} is not a number: {text}")) s
  let s ← override (lookup specialVariable) (fun text s => do
    return { s with special := ← SpecialFields.ofText text }) s
  s.validate

end KeyedRows.Settings
