/-
# Keys as bytes

A key is stored under a tag for its kind and the key itself: an integer in
eight bytes, raised by `2 ^ 63` so that the order of the bytes is the order of
the integers; a text in UTF-8; a byte string as it is.

Key definitions: `UserKey.tag`, `UserKey.toBytes`, `UserKey.ofBytes`.
-/
import KeyedRows.Key.Basic
import KeyedRows.Number.BigEndian

namespace KeyedRows.UserKey

open Number

/-- The byte that names the kind of a key. -/
def tag : UserKey → UInt8
  | .int _ => 1
  | .text _ => 3
  | .bytes _ => 4

def toBytes : UserKey → List UInt8
  | .int n => 1 :: bigEndian 8 (n.toInt + 9223372036854775808).toNat
  | .text s => 3 :: Text.Utf8.encode s
  | .bytes bs => 4 :: bs

/-- The key that bytes store. -/
def ofBytes : List UInt8 → Except Error UserKey
  | [] => .error (.malformed "empty key")
  | t :: body =>
    if t = 1 then
      if body.length = 8 then
        .ok (.int (Int64.ofInt (ofBigEndian body - 9223372036854775808)))
      else .error (.malformed s!"integer key of {body.length} bytes")
    else if t = 3 then
      match Text.Utf8.decode? body with
      | some s => .ok (.text s)
      | none => .error (.malformed (((Text.Utf8.fault? body).map (·.message)).getD ""))
    else if t = 4 then .ok (.bytes body)
    else .error (.malformed s!"unknown key tag {t.toNat}")

end KeyedRows.UserKey
