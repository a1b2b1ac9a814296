/-
# Quoted texts

A text in double quotes, with escapes for the quote, the backslash, the line
and tab characters and NUL, and `\u{…}` in hexadecimal for every other
character that does not stand visibly in a place of its own.

Key definitions: `standsAlone`, `escape`, `quoted`.
-/
import KeyedRows.Text.DefaultIgnorable
import KeyedRows.Text.GraphemeExtend
import KeyedRows.Text.Printable

namespace KeyedRows.Text

/-- The halfwidth sound marks of Katakana. They extend a grapheme, but are
letters and not marks by category, and take up a place. -/
def isHalfwidthSoundMark (c : Char) : Bool := c == '\uff9e' || c == '\uff9f'

/-- The character is printable, shows something, and does not attach to the
character before it. -/
def standsAlone (c : Char) : Bool :=
  isPrintable c && !isDefaultIgnorable c && (!isGraphemeExtend c || isHalfwidthSoundMark c)

/-- One character inside quotes. -/
def escape (c : Char) : List Char :=
  if c = '\x00' then ['\\', '0']
  else if c = '\t' then ['\\', 't']
  else if c = '\r' then ['\\', 'r']
  else if c = '\n' then ['\\', 'n']
  else if c = '\\' then ['\\', '\\']
  else if c = '"' then ['\\', '"']
  else if standsAlone c then [c]
  else '\\' :: 'u' :: '{' :: Nat.toDigits 16 c.toNat ++ ['}']

/-- The text between double quotes. -/
def quoted (cs : List Char) : List Char := '"' :: cs.flatMap escape ++ ['"']

end KeyedRows.Text
