/-
# Reading JSON

The grammar of JSON: a value and the text after it. Control characters do not
stand in texts, numbers have no needless zeros, and there is no comma before a
closing bracket.

Key definitions: `readUnits`, `readNumber`, `readValue`, `Json.ofText?`.
-/
import KeyedRows.Json.Basic

namespace KeyedRows.Json

def isBlank (c : Char) : Bool := c == ' ' || c == '\n' || c == '\t' || c == '\r'

def skipBlanks (cs : List Char) : List Char := cs.dropWhile isBlank

def hexDigit? (c : Char) : Option Nat :=
  let n := c.toNat
  if 48 ≤ n ∧ n ≤ 57 then some (n - 48)
  else if 97 ≤ n ∧ n ≤ 102 then some (n - 87)
  else if 65 ≤ n ∧ n ≤ 70 then some (n - 55)
  else none

/-- The code unit of four hexadecimal digits. -/
def hexUnit? (a b c d : Char) : Option Nat := do
  return ((← hexDigit? a) * 16 + (← hexDigit? b)) * 256 + ((← hexDigit? c) * 16 + (← hexDigit? d))

/-- The character that an escape of one letter stands for. -/
def shortEscape? (c : Char) : Option Char :=
  if c = '"' ∨ c = '\\' ∨ c = '/' then some c
  else if c = 'b' then some '\x08'
  else if c = 'f' then some '\x0c'
  else if c = 'n' then some '\n'
  else if c = 'r' then some '\r'
  else if c = 't' then some '\t'
  else none

/-- The units of a text up to its closing quote. -/
def readUnits : List Char → Option (List TextUnit × List Char)
  | [] => none
  | '"' :: cs => some ([], cs)
  | '\\' :: 'u' :: a :: b :: c :: d :: cs =>
    match hexUnit? a b c d with
    | some n => (readUnits cs).map fun (us, rest) => (.code n :: us, rest)
    | none => none
  | '\\' :: e :: cs =>
    match shortEscape? e with
    | some c => (readUnits cs).map fun (us, rest) => (.char c :: us, rest)
    | none => none
  | c :: cs =>
    if c.toNat < 0x20 ∨ c = '\\' then none
    else (readUnits cs).map fun (us, rest) => (.char c :: us, rest)

/-- Digits, at least one, and the text after them. -/
def readDigits (cs : List Char) : Option (List Char × List Char) :=
  match cs.takeWhile Char.isDigit with
  | [] => none
  | digits => some (digits, cs.dropWhile Char.isDigit)

/-- The whole part of a number: digits that begin with a zero only if there
are no others. -/
def readWhole (cs : List Char) : Option (List Char × List Char) :=
  match readDigits cs with
  | some ('0' :: _ :: _, _) => none
  | r => r

/-- The part of a number after its whole part: a fraction, then a power. -/
def readTail (cs : List Char) : Option (List Char × List Char) := do
  let (fraction, cs) ← match cs with
    | '.' :: cs => do
      let (digits, cs) ← readDigits cs
      pure ('.' :: digits, cs)
    | cs => pure ([], cs)
  match cs with
  | e :: cs' =>
    if e = 'e' ∨ e = 'E' then
      let (mark, cs') := match cs' with
        | '+' :: r => (['+'], r)
        | '-' :: r => (['-'], r)
        | r => ([], r)
      let (digits, cs') ← readDigits cs'
      pure (fraction ++ e :: mark ++ digits, cs')
    else pure (fraction, cs)
  | [] => pure (fraction, [])

def readNumber (cs : List Char) : Option (List Char × List Char) := do
  let (mark, cs) := match cs with
    | '-' :: cs => (['-'], cs)
    | cs => ([], cs)
  let (whole, cs) ← readWhole cs
  let (tail, cs) ← readTail cs
  return (mark ++ whole ++ tail, cs)

/-- What is left after a word. -/
def afterWord : List Char → List Char → Option (List Char)
  | [], cs => some cs
  | w :: ws, c :: cs => if w = c then afterWord ws cs else none
  | _ :: _, [] => none

mutual

/-- The value at the start of a text. The first number bounds how deep and how
long the value is; the length of the text suffices. -/
def readValue : Nat → List Char → Option (Json × List Char)
  | 0, _ => none
  | fuel + 1, cs =>
    match skipBlanks cs with
    | '"' :: cs => (readUnits cs).map fun (us, rest) => (.text us, rest)
    | '[' :: cs =>
      match skipBlanks cs with
      | ']' :: rest => some (.array [], rest)
      | cs => (readItems fuel cs).map fun (items, rest) => (.array items, rest)
    | '\x7b' :: cs =>
      match skipBlanks cs with
      | '\x7d' :: rest => some (.object [], rest)
      | cs => (readFields fuel cs).map fun (fields, rest) => (.object fields, rest)
    | 'n' :: cs => (afterWord "ull".toList cs).map fun rest => (.null, rest)
    | 't' :: cs => (afterWord "rue".toList cs).map fun rest => (.bool true, rest)
    | 'f' :: cs => (afterWord "alse".toList cs).map fun rest => (.bool false, rest)
    | cs => (readNumber cs).map fun (written, rest) => (.number written, rest)

/-- Values with commas between them, up to a closing bracket. -/
def readItems : Nat → List Char → Option (List Json × List Char)
  | 0, _ => none
  | fuel + 1, cs =>
    match readValue fuel cs with
    | none => none
    | some (v, cs) =>
      match skipBlanks cs with
      | ',' :: cs => (readItems fuel cs).map fun (vs, rest) => (v :: vs, rest)
      | ']' :: rest => some ([v], rest)
      | _ => none

/-- Fields with commas between them, up to a closing brace. -/
def readFields : Nat → List Char → Option (List (List TextUnit × Json) × List Char)
  | 0, _ => none
  | fuel + 1, cs =>
    match skipBlanks cs with
    | '"' :: cs =>
      match readUnits cs with
      | none => none
      | some (name, cs) =>
        match skipBlanks cs with
        | ':' :: cs =>
          match readValue fuel cs with
          | none => none
          | some (v, cs) =>
            match skipBlanks cs with
            | ',' :: cs => (readFields fuel cs).map fun (fs, rest) => ((name, v) :: fs, rest)
            | '\x7d' :: rest => some ([(name, v)], rest)
            | _ => none
        | _ => none
    | _ => none

end

/-- The document that a text writes, with nothing but blanks around it. -/
def ofText? (cs : List Char) : Option Json :=
  match readValue (2 * cs.length + 2) cs with
  | some (v, rest) => if (skipBlanks rest).isEmpty then some v else none
  | none => none

end KeyedRows.Json
