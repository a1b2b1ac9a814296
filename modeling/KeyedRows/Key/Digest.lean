/-
# Digests of keys

The digest of a key is the start of the hash of its set's name and its user
key, with the tag of the key's kind between them.

Key definitions: `Key.digestInput`, `Key.digest`.
-/
import KeyedRows.Digest.Sha256
import KeyedRows.Key.Bytes

namespace KeyedRows

open Number

/-- The bytes of a user key that enter its digest. -/
def UserKey.digestBytes : UserKey → List UInt8
  | .int n => bigEndian 8 n.toUInt64.toNat
  | .text s => Text.Utf8.encode s
  | .bytes bs => bs

namespace Key

/-- How many bytes a digest has. -/
def digestLength : Nat := 20

/-- What is hashed for a set's name and a user key. -/
def digestInput (setName : String) (user : UserKey) : List UInt8 :=
  Text.Utf8.encode setName ++ user.tag :: user.digestBytes

def digest (k : Key) : List UInt8 :=
  (Digest.sha256 (digestInput k.home.name k.user)).take digestLength

end Key
end KeyedRows
