/-
# Written values

A value can be shown, as its reader wants it, or described, with its kind and
quoted texts, so that different values never look alike.

Key definitions: `Value.shown`, `Value.described`.
-/
import KeyedRows.Number.Written
import KeyedRows.Text.Quoted
import KeyedRows.Value.Basic

namespace KeyedRows

open Number

/-- The digits of an integer, after a minus if it is negative. -/
def integerText (n : Int) : List Char :=
  if n < 0 then '-' :: digitsOf n.natAbs else digitsOf n.natAbs

/-- Parts with a comma and a space between them. -/
def commaSeparated : List (List Char) → List Char
  | [] => []
  | [p] => p
  | p :: q :: ps => p ++ ',' :: ' ' :: commaSeparated (q :: ps)

/-- Bytes as a bracketed list of numbers. -/
def bytesText (bs : List UInt8) : List Char :=
  '[' :: commaSeparated (bs.map fun b => digitsOf b.toNat) ++ [']']

namespace Value

mutual

/-- The value as text, without its kind. -/
def shown : Value → List Char
  | .null => "NULL".toList
  | .bool b => (if b then "true" else "false").toList
  | .int8 n => integerText n.toInt
  | .int16 n => integerText n.toInt
  | .int32 n => integerText n.toInt
  | .int64 n => integerText n.toInt
  | .float32 x => Style.plain.write .binary32 (ofFloat32 x)
  | .float64 x => Style.plain.write .binary64 (ofFloat x)
  | .text s => s.toList
  | .bytes bs => bytesText bs
  | .list items => '[' :: commaSeparated (shownItems items) ++ [']']
  | .map entries => '\x7b' :: commaSeparated (shownEntries entries) ++ ['\x7d']

def shownItems : List Value → List (List Char)
  | [] => []
  | v :: vs => shown v :: shownItems vs

def shownEntries : List (String × Value) → List (List Char)
  | [] => []
  | (n, v) :: es => (n.toList ++ '=' :: shown v) :: shownEntries es

end

/-- The name of a kind and what it holds, in parentheses. -/
def tagged (k : Kind) (content : List Char) : List Char :=
  k.name.toList ++ '(' :: content ++ [')']

mutual

/-- The value with its kind, texts in quotes. -/
def described : Value → List Char
  | .null => Kind.null.name.toList
  | .bool b => tagged .bool (if b then "true" else "false").toList
  | .int8 n => tagged .int8 (integerText n.toInt)
  | .int16 n => tagged .int16 (integerText n.toInt)
  | .int32 n => tagged .int32 (integerText n.toInt)
  | .int64 n => tagged .int64 (integerText n.toInt)
  | .float32 x => tagged .float32 (Style.described.write .binary32 (ofFloat32 x))
  | .float64 x => tagged .float64 (Style.described.write .binary64 (ofFloat x))
  | .text s => tagged .text (Text.quoted s.toList)
  | .bytes bs => tagged .bytes (bytesText bs)
  | .list items => tagged .list ('[' :: commaSeparated (describedItems items) ++ [']'])
  | .map entries =>
    tagged .map ('\x7b' :: commaSeparated (describedEntries entries) ++ ['\x7d'])

def describedItems : List Value → List (List Char)
  | [] => []
  | v :: vs => described v :: describedItems vs

def describedEntries : List (String × Value) → List (List Char)
  | [] => []
  | (n, v) :: es => (Text.quoted n.toList ++ ':' :: ' ' :: described v) :: describedEntries es

end

/-- The described values of a list, in brackets. -/
def describedList (vs : List Value) : List Char :=
  '[' :: commaSeparated (describedItems vs) ++ [']']

end Value
end KeyedRows
