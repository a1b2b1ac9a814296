/-
# JSON documents

A document keeps numbers as they are written, fields in the order in which
they stand, and texts as units: characters, and code units that an escape
names, which need not form characters.

Key definitions: `Json`, `TextUnit`, `joinUnits?`, `Json.string?`,
`Json.natural?`.
-/
import KeyedRows.Number.Numeral

namespace KeyedRows

/-- A character, or a 16-bit code unit. -/
inductive TextUnit where
  | char (c : Char)
  | code (n : Nat)
deriving DecidableEq

inductive Json where
  | null
  | bool (b : Bool)
  | number (written : List Char)
  | text (units : List TextUnit)
  | array (items : List Json)
  | object (fields : List (List TextUnit × Json))
deriving Inhabited

/-- The first half of a character beyond 16 bits. -/
def isLeading (n : Nat) : Bool := 0xD800 ≤ n && n ≤ 0xDBFF

/-- The second half of a character beyond 16 bits. -/
def isTrailing (n : Nat) : Bool := 0xDC00 ≤ n && n ≤ 0xDFFF

/-- The characters that units form, if each half has its other half. -/
def joinUnits? : List TextUnit → Option (List Char)
  | [] => some []
  | .char c :: us => (joinUnits? us).map (c :: ·)
  | .code n :: us =>
    if isLeading n then
      match us with
      | .code m :: us =>
        if isTrailing m then
          (joinUnits? us).map (Char.ofNat (0x10000 + (n - 0xD800) * 0x400 + (m - 0xDC00)) :: ·)
        else none
      | _ => none
    else if isTrailing n then none
    else (joinUnits? us).map (Char.ofNat n :: ·)

namespace Json

/-- The text as a string, if it is one. -/
def string? : Json → Option String
  | text units => (joinUnits? units).map String.ofList
  | _ => none

def bool? : Json → Option Bool
  | bool b => some b
  | _ => none

/-- The number, if it is written as digits alone. -/
def natural? : Json → Option Nat
  | number written => Number.natural? written
  | _ => none

end Json
end KeyedRows
