/-
# Records in byte trees

A store of trees, each a map from byte strings in byte order. A set is the
tree named by its namespace and its name with a point between them; a record
lies in it under the bytes of its user key.

Key definitions: `TreeStore`, `treeName`, `find?`, `put`, `load`, `first?`.
Key theorem: `find?_put`: a write merges into the record at its place in its
tree and touches no other.
-/
import KeyedRows.Filter
import KeyedRows.Key.Bytes

namespace KeyedRows

/-- The name of the tree that holds a set. -/
def SetAddress.treeName (home : SetAddress) : String := home.space ++ "." ++ home.name

/-- A place in a tree. -/
structure TreePlace where
  tree : String
  bytes : List UInt8
deriving DecidableEq, Inhabited

/-- By tree, then by bytes. -/
instance : Ord TreePlace where
  compare := compareLex (compareOn TreePlace.tree) (compareOn TreePlace.bytes)

instance : Std.TransOrd TreePlace :=
  inferInstanceAs (Std.TransCmp (compareLex (compareOn TreePlace.tree)
    (compareOn TreePlace.bytes)))

instance : Std.LawfulEqOrd TreePlace where
  eq_of_compare {a b} h := by
    obtain ⟨h1, h2⟩ := Ordering.then_eq_eq.1 h
    cases a
    cases b
    exact congr (congrArg TreePlace.mk (Std.LawfulEqOrd.eq_of_compare h1))
      (Std.LawfulEqOrd.eq_of_compare h2)
  compare_self := Std.ReflCmp.compare_self

structure TreeStore where
  places : OrderedMap TreePlace Bins := {}
deriving DecidableEq, Inhabited

/-- Where a record lies. -/
def Key.place (k : Key) : TreePlace := ⟨k.home.treeName, k.user.toBytes⟩

namespace TreeStore

def find? (s : TreeStore) (k : Key) : Option Bins := s.places.find? k.place

/-- The bins merged into the record under the key, which exists from then on. -/
def put (s : TreeStore) (k : Key) (bins : Bins) : TreeStore :=
  ⟨s.places.insert k.place (((s.find? k).getD {}).merge bins)⟩

/-- The entries of the tree of a set, in the order of their bytes. -/
def entriesOf (s : TreeStore) (home : SetAddress) : List (TreePlace × Bins) :=
  s.places.entries.filter fun e => e.1.tree = home.treeName

/-- The record of an entry, unless its bytes are no key. -/
def recordOf (home : SetAddress) (e : TreePlace × Bins) : Except Error Record := do
  return ⟨some ⟨home, ← UserKey.ofBytes e.1.bytes⟩, e.2⟩

/-- The records of a set that satisfy a filter, or all of them. The bytes of an
entry are read after its bins are filtered. -/
def load (s : TreeStore) (home : SetAddress) (filter : Option Filter) :
    Except Error (List Record) :=
  ((s.entriesOf home).filter fun e => filter.all (·.accepts e.2)).mapM (recordOf home)

/-- The first record of a set; no other entry of its tree is read. -/
def first? (s : TreeStore) (home : SetAddress) : Except Error (Option Record) :=
  (s.entriesOf home).head?.mapM (recordOf home)

/-- **A write merges into the record at its place and touches no other.** -/
theorem find?_put (s : TreeStore) (j k : Key) (bins : Bins) :
    (s.put j bins).find? k =
      if k.place = j.place then some (((s.find? j).getD {}).merge bins) else s.find? k := by
  rw [find?, put, OrderedMap.find?_insert]
  by_cases h : k.place = j.place
  · simp [h]
  · have : compare k.place j.place ≠ .eq := fun hc => h (Std.LawfulEqOrd.eq_of_compare hc)
    simp [h, this, find?]

end TreeStore
end KeyedRows
