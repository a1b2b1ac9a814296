/-
# Records in memory

A store that keeps the bins of every record under its key. The records of a
set are walked in the order of their user keys.

Key definitions: `MemoryStore`, `find?`, `put`, `recordsOf`.
Key theorem: `find?_put`: a write merges into its record and touches no other.
-/
import KeyedRows.Record

namespace KeyedRows

structure MemoryStore where
  records : OrderedMap Key Bins := {}
deriving DecidableEq, Inhabited

namespace MemoryStore

def find? (s : MemoryStore) (k : Key) : Option Bins := s.records.find? k

/-- The bins merged into the record under the key, which exists from then on. -/
def put (s : MemoryStore) (k : Key) (bins : Bins) : MemoryStore :=
  ⟨s.records.insert k (((s.find? k).getD {}).merge bins)⟩

/-- The records of a set, by user key. -/
def recordsOf (s : MemoryStore) (home : SetAddress) : List Record :=
  (s.records.entries.filter fun e => e.1.home = home).map fun e => ⟨some e.1, e.2⟩

/-- **A write merges into its record and touches no other.** -/
theorem find?_put (s : MemoryStore) (j k : Key) (bins : Bins) :
    (s.put j bins).find? k =
      if k = j then some (((s.find? j).getD {}).merge bins) else s.find? k := by
  rw [find?, put, OrderedMap.find?_insert]
  by_cases h : k = j
  · subst h
    simp
  · have : compare k j ≠ .eq := fun hc => h (Std.LawfulEqOrd.eq_of_compare hc)
    simp [h, this, find?]

end MemoryStore
end KeyedRows
