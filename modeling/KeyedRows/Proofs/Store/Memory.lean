/-
# What a store in memory holds

A write merges bins: a name that it mentions gets the new value in its normal
form, or goes if that is null, and every other name keeps its value
(`Bins.find?_merge`). The records of a set are what the look-ups of its keys
find (`mem_recordsOf`), in ascending order of their user keys
(`recordsOf_ascending`).

Key definitions: `Value.kept`, `Value.key?`, `Record.Precedes`.
-/
import KeyedRows.Proofs.OrderedMap
import KeyedRows.Store.Memory

namespace KeyedRows

/-- What a store keeps of a written value: nothing of a null, the normal form
of any other. -/
def Value.kept (v : Value) : Option Value := if v.isNull then none else some v.normalized

theorem Value.isNull_normalized (v : Value) : v.normalized.isNull = v.isNull := by
  cases v <;> rfl

/-- The user key that a value is. -/
def Value.key? : Value → Option UserKey
  | .int32 n => some (.int n.toInt64)
  | .int64 n => some (.int n)
  | .text s => some (.text s)
  | .bytes bs => some (.bytes bs)
  | _ => none

theorem UserKey.ofValue_eq_ok (column : String) (v : Value) (u : UserKey) :
    UserKey.ofValue column v = .ok u ↔ v.key? = some u := by
  cases v <;> simp [UserKey.ofValue, Value.key?]

namespace Bins

theorem find?_write (stored : Bins) (j name : String) (v : Value) :
    (stored.write j v).find? name = if name = j then v.kept else stored.find? name := by
  have hc : compare name j = .eq ↔ name = j := Std.LawfulEqOrd.compare_eq_iff_eq
  unfold write Value.kept
  cases v.isNull <;> simp [OrderedMap.find?_erase, OrderedMap.find?_insert, hc]

theorem find?_foldl_write (name : String) : ∀ (l : List (String × Value)) (stored : Bins),
    l.Pairwise (fun a b => compare a.1 b.1 = .lt) →
    (l.foldl (fun m e => write m e.1 e.2) stored).find? name =
      match OrderedMap.lookup name l with
      | some v => v.kept
      | none => stored.find? name
  | [], _, _ => rfl
  | (j, v) :: rest, stored, h => by
    obtain ⟨hj, hr⟩ := List.pairwise_cons.mp h
    rw [List.foldl_cons, find?_foldl_write name rest _ hr, find?_write, OrderedMap.lookup]
    by_cases hn : name = j
    · subst hn
      have hnone : OrderedMap.lookup name rest = none := OrderedMap.lookup_eq_none_of_lt hj
      simp [hnone]
    · have hc : compare name j ≠ .eq := fun hc => hn (Std.LawfulEqOrd.eq_of_compare hc)
      simp [hn, hc]

/-- **A merge changes the names that are written and no other.** -/
theorem find?_merge (stored new : Bins) (name : String) :
    (stored.merge new).find? name =
      match new.find? name with
      | some v => v.kept
      | none => stored.find? name :=
  find?_foldl_write name new.entries stored new.ascending

end Bins

/-- Both records are of the set, and the user key of the one comes before the
user key of the other. -/
def Record.Precedes (home : SetAddress) (a b : Record) : Prop :=
  ∃ u v, a.key = some ⟨home, u⟩ ∧ b.key = some ⟨home, v⟩ ∧ compare u v = .lt

namespace MemoryStore

/-- **The records of a set are what the look-ups of its keys find.** -/
theorem mem_recordsOf {s : MemoryStore} {home : SetAddress} {r : Record} :
    r ∈ s.recordsOf home ↔
      ∃ user, r.key = some ⟨home, user⟩ ∧ s.find? ⟨home, user⟩ = some r.bins := by
  simp only [recordsOf, List.mem_map, List.mem_filter, decide_eq_true_eq]
  constructor
  · rintro ⟨⟨⟨home', user⟩, bins⟩, ⟨hmem, hhome⟩, rfl⟩
    subst hhome
    exact ⟨user, rfl, OrderedMap.mem_entries_iff.mp hmem⟩
  · rintro ⟨user, hkey, hfind⟩
    refine ⟨(⟨home, user⟩, r.bins), ⟨OrderedMap.mem_entries_iff.mpr hfind, rfl⟩, ?_⟩
    rw [← hkey]

/-- **The records of a set ascend in their user keys.** -/
theorem recordsOf_ascending (s : MemoryStore) (home : SetAddress) :
    (s.recordsOf home).Pairwise (Record.Precedes home) := by
  unfold recordsOf
  rw [List.pairwise_map]
  refine List.Pairwise.imp_of_mem ?_ (s.records.ascending.filter _)
  rintro ⟨⟨h1, u⟩, b1⟩ ⟨⟨h2, v⟩, b2⟩ hm1 hm2 hlt
  have e1 : h1 = home := by simpa using (List.mem_filter.mp hm1).2
  have e2 : h2 = home := by simpa using (List.mem_filter.mp hm2).2
  rw [e1, e2] at hlt ⊢
  refine ⟨u, v, rfl, rfl, ?_⟩
  -- both keys are of one set, so their user keys decide
  change (compare home home).then (compare u v) = .lt at hlt
  simpa using hlt

end MemoryStore
end KeyedRows
