/-
# Keys

A record has a user key in a set; a set is addressed by its namespace and
its name. Integers come before texts, texts before byte strings; texts are
ordered by their bytes.

Key definitions: `UserKey`, `UserKey.ofValue`, `SetAddress`, `Key`.
-/
import KeyedRows.Error
import KeyedRows.Text.Utf8

namespace KeyedRows

inductive UserKey where
  | int (n : Int64)
  | text (s : String)
  | bytes (bs : List UInt8)
deriving DecidableEq, Inhabited

namespace UserKey

/-- The key a value stands for in a column. -/
def ofValue (column : String) : Value → Except Error UserKey
  | .int64 n => .ok (.int n)
  | .int32 n => .ok (.int n.toInt64)
  | .text s => .ok (.text s)
  | .bytes bs => .ok (.bytes bs)
  | v => .error (.invalidValue column v)

def toValue : UserKey → Value
  | .int n => .int64 n
  | .text s => .text s
  | .bytes bs => .bytes bs

/-- The key as text, texts in single quotes. -/
def shown : UserKey → String
  | .int n => String.ofList (integerText n.toInt)
  | .text s => s!"'{s}'"
  | .bytes bs => String.ofList (bytesText bs)

/-! ### Order -/

/-- The place of a key's kind. -/
def kindRank : UserKey → Nat
  | .int _ => 0
  | .text _ => 1
  | .bytes _ => 2

/-- The integer of a key. -/
def integerPart : UserKey → Int
  | .int n => n.toInt
  | _ => 0

/-- The bytes of a key. -/
def bytesPart : UserKey → List UInt8
  | .int _ => []
  | .text s => Text.Utf8.encode s
  | .bytes bs => bs

theorem eq_of_parts {a b : UserKey} (hk : a.kindRank = b.kindRank)
    (hi : a.integerPart = b.integerPart) (hb : a.bytesPart = b.bytesPart) : a = b := by
  cases a <;> cases b <;> simp_all [kindRank, integerPart, bytesPart]
  · exact Int64.toInt_inj.1 hi
  · exact Text.Utf8.encode_injective hb

/-- By kind, then within the kind. -/
instance : Ord UserKey where
  compare := compareLex (compareOn kindRank)
    (compareLex (compareOn integerPart) (compareOn bytesPart))

instance : Std.TransOrd UserKey :=
  inferInstanceAs (Std.TransCmp (compareLex (compareOn kindRank)
    (compareLex (compareOn integerPart) (compareOn bytesPart))))

instance : Std.LawfulEqOrd UserKey where
  eq_of_compare {a b} h := by
    obtain ⟨hk, h⟩ := Ordering.then_eq_eq.1 h
    obtain ⟨hi, hb⟩ := Ordering.then_eq_eq.1 h
    exact eq_of_parts (Std.LawfulEqOrd.eq_of_compare hk) (Std.LawfulEqOrd.eq_of_compare hi)
      (Std.LawfulEqOrd.eq_of_compare hb)
  compare_self := Std.ReflCmp.compare_self

end UserKey

/-- A set of records: a namespace and a name in it. -/
structure SetAddress where
  space : String
  name : String
deriving DecidableEq, Inhabited

/-- By namespace, then by name. -/
instance : Ord SetAddress where
  compare := compareLex (compareOn SetAddress.space) (compareOn SetAddress.name)

instance : Std.TransOrd SetAddress :=
  inferInstanceAs (Std.TransCmp (compareLex (compareOn SetAddress.space)
    (compareOn SetAddress.name)))

instance : Std.LawfulEqOrd SetAddress where
  eq_of_compare {a b} h := by
    obtain ⟨h1, h2⟩ := Ordering.then_eq_eq.1 h
    cases a
    cases b
    exact congr (congrArg SetAddress.mk (Std.LawfulEqOrd.eq_of_compare h1))
      (Std.LawfulEqOrd.eq_of_compare h2)
  compare_self := Std.ReflCmp.compare_self

structure Key where
  home : SetAddress
  user : UserKey
deriving DecidableEq, Inhabited

/-- By set, then by user key. -/
instance : Ord Key where
  compare := compareLex (compareOn Key.home) (compareOn Key.user)

instance : Std.TransOrd Key :=
  inferInstanceAs (Std.TransCmp (compareLex (compareOn Key.home) (compareOn Key.user)))

instance : Std.LawfulEqOrd Key where
  eq_of_compare {a b} h := by
    obtain ⟨h1, h2⟩ := Ordering.then_eq_eq.1 h
    cases a
    cases b
    exact congr (congrArg Key.mk (Std.LawfulEqOrd.eq_of_compare h1))
      (Std.LawfulEqOrd.eq_of_compare h2)
  compare_self := Std.ReflCmp.compare_self

/-- The key as text: namespace, set and user key. -/
def Key.shown (k : Key) : String := s!"{k.home.space}:{k.home.name}:{k.user.shown}"

end KeyedRows
