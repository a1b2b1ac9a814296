/-
# Records pass the filters that they passed before

A store keeps a written record in its normal form and without its nulls. No
filter tells the difference: an integer is compared by its value whatever its
width was (`Filter.acceptsValue_normalized`), and a null is accepted by no filter,
as an absent bin is not (`Filter.accepts_kept`). So a merge decides for a filter by
the new bins where they mention its bin, and by the stored ones elsewhere
(`Filter.accepts_merge`).

Key theorem: **`stored_passes_as_given`**.
-/
import KeyedRows.Proofs.Statement.Distinct
import KeyedRows.Proofs.Statement.Where

namespace KeyedRows

/-- The normal form of an integer is the integer, and nothing else becomes
one. -/
theorem Value.toInt64?_normalized (v : Value) : v.normalized.toInt64? = v.toInt64? := by
  cases v <;> rfl

namespace Filter

/-- A filter accepts the normal form of a value as it accepts the value. -/
theorem acceptsValue_normalized (f : Filter) (v : Value) :
    f.acceptsValue v.normalized = f.acceptsValue v := by
  cases f with
  | equals bin operand =>
    cases operand with
    | int n => simp only [acceptsValue, v.toInt64?_normalized]
    | text s => cases v <;> rfl
  | within bin low high => simp only [acceptsValue, v.toInt64?_normalized]

/-- A filter accepts what a store keeps of a value if it accepts the value. -/
theorem accepts_kept (f : Filter) (v : Value) :
    v.kept.any f.acceptsValue = f.acceptsValue v := by
  unfold Value.kept
  cases hnull : v.isNull with
  | true =>
    have hv : v = .null := by
      cases v <;> first | rfl | cases hnull
    rw [hv, acceptsValue_null]
    rfl
  | false => exact f.acceptsValue_normalized v

/-- A filter accepts bins if it accepts what they have under its name. -/
theorem accepts_eq_any (f : Filter) (bins : Bins) :
    f.accepts bins = (bins.find? f.bin).any f.acceptsValue := by
  unfold accepts
  cases bins.find? f.bin <;> rfl

/-- **A merge decides for a filter by the new bins where they mention its bin,
and by the stored ones elsewhere.** -/
theorem accepts_merge (f : Filter) (stored new : Bins) :
    f.accepts (stored.merge new) =
      if (new.find? f.bin).isSome then f.accepts new else f.accepts stored := by
  rw [f.accepts_eq_any, f.accepts_eq_any, f.accepts_eq_any, Bins.find?_merge]
  cases new.find? f.bin with
  | none => rfl
  | some v => exact f.accepts_kept v

/-- A new record is accepted as the bins that it is made of. -/
theorem accepts_merge_empty (f : Filter) (bins : Bins) :
    f.accepts (({} : Bins).merge bins) = f.accepts bins := by
  rw [accepts_merge]
  split_ifs with hmentioned
  · rfl
  · have habsent : bins.find? f.bin = none := by simpa using hmentioned
    rw [f.accepts_eq_any bins, habsent]
    rfl

end Filter

/-- The record of a key among those of its set that a filter accepts. -/
theorem MemoryStore.matching_filter_key (m : MemoryStore) (key : Key) (f : Filter) :
    ((m.matching { home := key.home, filter := some f }).filter fun r => r.key == some key) =
      ((m.find? key).filter f.accepts).toList.map fun bins => ⟨some key, bins⟩ := by
  have hswap : ((m.matching { home := key.home, filter := some f }).filter
        fun r => r.key == some key) =
      ((m.recordsOf key.home).filter fun r => r.key == some key).filter
        fun r => f.accepts r.bins := by
    simp only [matching, List.filter_filter, Bool.and_comm]
  rw [hswap, recordsOf_filter_key]
  cases m.find? key with
  | none => rfl
  | some bins => cases haccepts : f.accepts bins <;> simp [Option.filter, haccepts]

/-- **Storing a record changes nothing about the filters that it passes**: under
a new key, the query with a filter and the filter behind a scan return the same
records, and the new one is among them exactly if the filter accepts its bins as
they were given. -/
theorem stored_passes_as_given (m : MemoryStore) (key : Key) (hnew : m.find? key = none)
    (bins : Bins) (f : Filter) (cl : Client) (hm : cl.Serves m) :
    ∃ written queried asked scanned read rows,
      Client.put key bins cl = .ok () written ∧
      Client.query { home := key.home, filter := some f } written = .ok queried asked ∧
      Client.scan key.home written = .ok scanned read ∧
      queried.drain.1 = .ok rows ∧ (scanned.restrict [f]).drain.1 = .ok rows ∧
      (rows.filter fun r => r.key == some key) =
        if f.accepts bins then [⟨some key, ({} : Bins).merge bins⟩] else [] := by
  let stored := m.put key bins
  let q : IndexQuery := { home := key.home, filter := some f }
  have hwritten : (cl.served (.put key bins)).Serves stored := hm.served (.put key bins)
  have hquery := hwritten.query_eq q
  have hscan := hwritten.scan_eq key.home
  refine ⟨_, _, _, _, _, stored.matching q, hm.call_eq (.put key bins), hquery, hscan, ?_, ?_, ?_⟩
  · rw [RecordStream.drain_of_events (RecordStream.events_of_records rfl rfl)]
  · -- behind the scan the filter takes the same records out of the same list
    have hone : ∀ r : Record, passes [f] r.bins = f.accepts r.bins := fun r => Bool.and_true _
    rw [RecordStream.drain_of_events (RecordStream.events_restrict rfl rfl [f])]
    simp only [hone]
    rfl
  · have hfound : stored.find? key = some (({} : Bins).merge bins) := by
      rw [MemoryStore.find?_put, if_pos rfl, hnew]
      rfl
    rw [MemoryStore.matching_filter_key, hfound, Option.filter, f.accepts_merge_empty]
    split_ifs <;> rfl

/-- A narrow integer among nulls and nested values passes a range with the
smallest bound, beside a record that does not. -/
theorem narrow_integer_passes_as_given :
    let home : SetAddress := ⟨"test", "t"⟩
    let key : Key := ⟨home, .text "new"⟩
    let bins : Bins := .ofList [("gone", .null), ("list", .list [.int16 3, .null]),
      ("map", .map [("x", .int8 1), ("y", .null)]), ("n", .int8 (-7))]
    let f : Filter := .within "n" Int64.minValue (-7)
    let m := MemoryStore.put {} ⟨home, .int 1⟩ (.ofList [("n", .int64 2)])
    let cl : Client := { store := .memory m }
    m.find? key = none ∧ cl.Serves m ∧ f.accepts bins = true ∧
    ∃ written queried asked scanned read rows,
      Client.put key bins cl = .ok () written ∧
      Client.query { home, filter := some f } written = .ok queried asked ∧
      Client.scan home written = .ok scanned read ∧
      queried.drain.1 = .ok rows ∧ (scanned.restrict [f]).drain.1 = .ok rows ∧
      (rows.filter fun r => r.key == some key) = [⟨some key, ({} : Bins).merge bins⟩] := by
  intro home key bins f m cl
  have hnew : m.find? key = none := by decide +kernel
  have hm : cl.Serves m := ⟨rfl, rfl⟩
  have haccepts : f.accepts bins = true := by decide +kernel
  have hpasses := stored_passes_as_given m key hnew bins f cl hm
  rw [if_pos haccepts] at hpasses
  exact ⟨hnew, hm, haccepts, hpasses⟩

end KeyedRows
