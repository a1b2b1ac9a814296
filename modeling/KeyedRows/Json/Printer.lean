/-
# Writing JSON

A document over several lines, two blanks deeper for every level. In texts
the quote, the backslash and the control characters are escaped.

Key definitions: `escapeUnit`, `Json.write`.
-/
import KeyedRows.Json.Basic

namespace KeyedRows.Json

/-- Four hexadecimal digits. -/
def hexText (n : Nat) : List Char :=
  [n / 4096, n / 256 % 16, n / 16 % 16, n % 16].map Nat.digitChar

def escapeUnit : TextUnit → List Char
  | .code n => '\\' :: 'u' :: hexText n
  | .char c =>
    if c = '"' ∨ c = '\\' then ['\\', c]
    else if c = '\x08' then ['\\', 'b']
    else if c = '\x0c' then ['\\', 'f']
    else if c = '\n' then ['\\', 'n']
    else if c = '\r' then ['\\', 'r']
    else if c = '\t' then ['\\', 't']
    else if c.toNat < 0x20 then '\\' :: 'u' :: hexText c.toNat
    else [c]

def writeText (units : List TextUnit) : List Char := '"' :: units.flatMap escapeUnit ++ ['"']

/-- The start of a line at a depth. -/
def newLine (depth : Nat) : List Char := '\n' :: List.replicate (2 * depth) ' '

/-- Lines with a comma after each but the last. -/
def withCommas : List (List Char) → List Char
  | [] => []
  | [l] => l
  | l :: m :: ls => l ++ ',' :: withCommas (m :: ls)

/-- Lines in brackets; without lines the brackets alone. -/
def bracketed (depth : Nat) (left right : Char) : List (List Char) → List Char
  | [] => [left, right]
  | lines => left :: withCommas lines ++ newLine depth ++ [right]

mutual

/-- The document, its inner lines one level below the depth. -/
def write (depth : Nat) : Json → List Char
  | .null => "null".toList
  | .bool b => (if b then "true" else "false").toList
  | .number written => written
  | .text units => writeText units
  | .array items => bracketed depth '[' ']' (itemLines (depth + 1) items)
  | .object fields => bracketed depth '\x7b' '\x7d' (fieldLines (depth + 1) fields)

def itemLines (depth : Nat) : List Json → List (List Char)
  | [] => []
  | v :: vs => (newLine depth ++ write depth v) :: itemLines depth vs

def fieldLines (depth : Nat) : List (List TextUnit × Json) → List (List Char)
  | [] => []
  | (n, v) :: fs =>
    (newLine depth ++ writeText n ++ ':' :: ' ' :: write depth v) :: fieldLines depth fs

end

end KeyedRows.Json
