/-
# Bytes, blobs and arrays

Byte strings as values read them: whole, cut into pieces, or consumed from the
front; and lists of values with the type of their elements.

Key definitions: `Blob`, `Blob.cut`, `ByteStream`, `SqlArray`,
`SqlArray.baseType`.
-/
import KeyedRows.Schema.SqlType
import KeyedRows.Text.Utf8
import KeyedRows.Typed.Basic

namespace KeyedRows

/-- A byte string of which parts can be read. -/
structure Blob where
  bytes : List UInt8
deriving DecidableEq, Inhabited

namespace Blob

def length (b : Blob) : Nat := b.bytes.length

def isEmpty (b : Blob) : Bool := b.bytes.isEmpty

/-- Up to `count` bytes from an offset on, as far as there are any. -/
def cut (b : Blob) (offset count : Nat) : List UInt8 := (b.bytes.drop offset).take count

end Blob

/-- A byte string that is read from the front. -/
structure ByteStream where
  unread : List UInt8
deriving DecidableEq, Inhabited

/-- Values and the SQL type of their elements. -/
structure SqlArray where
  base : SqlType
  elements : List Value
deriving Inhabited

namespace SqlArray

/-- The common type of the elements that are not null; without one, or
without such elements, the general type. -/
def baseType (elements : List Value) : SqlType :=
  match (elements.filter (!·.isNull)).map SqlType.ofValue with
  | [] => .object
  | t :: ts => if ts.all (· == t) then t else .object

def ofValues (elements : List Value) : SqlArray := ⟨baseType elements, elements⟩

end SqlArray

namespace Typed

/-- A byte string, or the bytes of a text. -/
def bytes : Value → Except Error (List UInt8)
  | .bytes bs => .ok bs
  | .text s => .ok (Text.Utf8.encode s)
  | v => .error (.wrongKind "Bytes" v)

/-- A list, or the bytes of a byte string as signed integers. -/
def array : Value → Except Error SqlArray
  | .list items => .ok (.ofValues items)
  | .bytes bs => .ok (.ofValues (bs.map fun b => .int8 b.toInt8))
  | v => .error (.wrongKind "List" v)

end Typed

instance : Readable (List UInt8) := ⟨Typed.bytes⟩
instance : Readable Blob := ⟨fun v => (Typed.bytes v).map .mk⟩
instance : Readable ByteStream := ⟨fun v => (Typed.bytes v).map .mk⟩
instance : Readable SqlArray := ⟨Typed.array⟩

end KeyedRows
