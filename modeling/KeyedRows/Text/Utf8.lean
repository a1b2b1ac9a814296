/-
# UTF-8

Texts as byte sequences, and where a byte sequence stops being a text.

Key definitions: `encode`, `decode?`, `Fault`, `fault?`.
Key theorems: `decode?_encode` and `eq_encode_of_decode?`: reading accepts
exactly what writing produces; `eq_append_of_encode`: the bytes of a text are
cut into bytes of texts.
-/

namespace KeyedRows.Text.Utf8

/-- The bytes of a text. -/
def encode (s : String) : List UInt8 := s.toByteArray.data.toList

/-- The text of the bytes, if they are one. -/
def decode? (bytes : List UInt8) : Option String := String.fromUTF8? ⟨bytes.toArray⟩

theorem decode?_encode (s : String) : decode? (encode s) = some s := by
  have h : s.toByteArray.IsValidUTF8 := s.isValidUTF8
  simp only [decode?, encode, String.fromUTF8?, Array.toArray_toList]
  exact dif_pos h

theorem eq_encode_of_decode? {bytes : List UInt8} {s : String} (h : decode? bytes = some s) :
    bytes = encode s := by
  unfold decode? String.fromUTF8? at h
  split at h
  · cases h
    rfl
  · cases h

theorem encode_append (s t : String) : encode (s ++ t) = encode s ++ encode t := by
  simp [encode, String.toByteArray_append]

/-- Different texts have different bytes. -/
theorem encode_injective {s t : String} (h : encode s = encode t) : s = t := by
  have hread : decode? (encode s) = decode? (encode t) := by rw [h]
  rw [decode?_encode, decode?_encode] at hread
  exact Option.some.inj hread

/-- What follows the bytes of a text within those of another one are the bytes of
a text themselves. -/
theorem eq_append_of_encode {s t : String} {rest : List UInt8}
    (h : encode t = encode s ++ rest) : ∃ r, t = s ++ r ∧ rest = encode r := by
  have hbytes : s.toList.utf8Encode ++ ⟨rest.toArray⟩ = t.toList.utf8Encode := by
    rw [String.utf8Encode_toList, String.utf8Encode_toList]
    apply ByteArray.ext
    apply Array.toList_inj.mp
    simpa [encode] using h.symm
  obtain ⟨r, hr⟩ := List.isPrefix_of_utf8Encode_append_eq_utf8Encode _ hbytes
  have ht : t = s ++ String.ofList r := by
    apply String.toList_inj.mp
    rw [String.toList_append, String.toList_ofList, hr]
  refine ⟨String.ofList r, ht, ?_⟩
  rw [ht, encode_append] at h
  exact (List.append_cancel_left h).symm

/-- The bytes up to `index` are characters. What follows is `length` bytes
that begin none or, without a `length`, a character that the end cuts off. -/
structure Fault where
  index : Nat
  length : Option Nat
deriving DecidableEq

def Fault.message : Fault → String
  | ⟨i, some n⟩ => s!"invalid utf-8 sequence of {n} bytes from index {i}"
  | ⟨i, none⟩ => s!"incomplete utf-8 byte sequence from index {i}"

/-- The ranges in which the bytes after a first byte lie, if it is one. -/
def followers (b : UInt8) : Option (List (UInt8 × UInt8)) :=
  if b < 0x80 then some []
  else if b < 0xC2 then none
  else if b < 0xE0 then some [(0x80, 0xBF)]
  else if b = 0xE0 then some [(0xA0, 0xBF), (0x80, 0xBF)]
  else if b = 0xED then some [(0x80, 0x9F), (0x80, 0xBF)]
  else if b < 0xF0 then some [(0x80, 0xBF), (0x80, 0xBF)]
  else if b = 0xF0 then some [(0x90, 0xBF), (0x80, 0xBF), (0x80, 0xBF)]
  else if b < 0xF4 then some [(0x80, 0xBF), (0x80, 0xBF), (0x80, 0xBF)]
  else if b = 0xF4 then some [(0x80, 0x8F), (0x80, 0xBF), (0x80, 0xBF)]
  else none

/-- The first fault of the bytes that follow `taken` bytes of a character,
begun at `start`, of which the bytes in the ranges `due` are still to come. -/
def faultFrom (start taken : Nat) : List (UInt8 × UInt8) → List UInt8 → Option Fault
  | [], [] => none
  | _ :: _, [] => some ⟨start, none⟩
  | [], b :: rest =>
    match followers b with
    | none => some ⟨start, some 1⟩
    | some [] => faultFrom (start + 1) 0 [] rest
    | some due => faultFrom start 1 due rest
  | (lo, hi) :: due, b :: rest =>
    if lo ≤ b ∧ b ≤ hi then
      if due.isEmpty then faultFrom (start + taken + 1) 0 [] rest
      else faultFrom start (taken + 1) due rest
    else some ⟨start, some taken⟩

/-- The first place at which the bytes are no text. -/
def fault? (bytes : List UInt8) : Option Fault := faultFrom 0 0 [] bytes

end KeyedRows.Text.Utf8
