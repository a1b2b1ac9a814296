/-
# What a history of calls leaves in a store

A store in memory remembers of its calls what its writes have put under each
name of a record, the last of them first: that value in its normal form, or
nothing if it was null (`find?_afterAll`). Writes to other records and calls
that only read leave no trace (`find?_afterAll_writesTo`). So a record that can
be reached holds no null, and no narrow number at any depth
(`isNarrow_of_partOf_normalized`).

Key definitions: `MemoryStore.afterAll`, `writtenUnder`, `Value.PartOf`,
`Merged`.
Key theorem: **`merged_of_calls`**.
-/
import KeyedRows.Proofs.Store.Client

namespace KeyedRows

/-! ### Normal values -/

/-- The kinds of numbers that have a wider one. -/
def Kind.isNarrow : Kind → Bool
  | .int8 => true
  | .int16 => true
  | .int32 => true
  | .float32 => true
  | _ => false

/-- The first value stands in the second, at any depth of lists and maps. -/
inductive Value.PartOf (w : Value) : Value → Prop where
  | whole : PartOf w w
  | item {v : Value} {items : List Value} : v ∈ items → PartOf w v → PartOf w (.list items)
  | entry {name : String} {v : Value} {entries : List (String × Value)} :
      (name, v) ∈ entries → PartOf w v → PartOf w (.map entries)

namespace Value

theorem mem_normalizedItems {v : Value} : ∀ {items : List Value},
    v ∈ normalizedItems items → ∃ u ∈ items, v = u.normalized
  | [], h => by cases h
  | u :: us, h => by
    rcases List.mem_cons.mp h with rfl | h
    · exact ⟨u, List.mem_cons_self, rfl⟩
    · obtain ⟨u', hu', hv⟩ := mem_normalizedItems h
      exact ⟨u', List.mem_cons_of_mem _ hu', hv⟩

theorem mem_normalizedEntries {name : String} {v : Value} : ∀ {entries : List (String × Value)},
    (name, v) ∈ normalizedEntries entries → ∃ u, (name, u) ∈ entries ∧ v = u.normalized
  | [], h => by cases h
  | (n, u) :: es, h => by
    rcases List.mem_cons.mp h with he | h
    · obtain ⟨rfl, rfl⟩ := Prod.mk.inj he
      exact ⟨u, List.mem_cons_self, rfl⟩
    · obtain ⟨u', hu', hv⟩ := mem_normalizedEntries h
      exact ⟨u', List.mem_cons_of_mem _ hu', hv⟩

/-- **A normal form has no narrow number at any depth.** -/
theorem isNarrow_of_partOf_normalized {w u : Value} (h : w.PartOf u) :
    ∀ v : Value, u = v.normalized → w.kind.isNarrow = false := by
  induction h with
  | whole =>
    intro v hv
    rw [hv]
    cases v <;> rfl
  | item hmem _ ih =>
    intro v hv
    cases v with
    | list items =>
      rw [normalized, Value.list.injEq] at hv
      obtain ⟨u', -, hu'⟩ := mem_normalizedItems (hv ▸ hmem)
      exact ih u' hu'
    | _ => cases hv
  | entry hmem _ ih =>
    intro v hv
    cases v with
    | map entries =>
      rw [normalized, Value.map.injEq] at hv
      obtain ⟨u', -, hu'⟩ := mem_normalizedEntries (hv ▸ hmem)
      exact ih u' hu'
    | _ => cases hv

/-- What is kept of a value is not null and has no narrow number at any depth. -/
theorem normal_of_kept {u v : Value} (h : u.kept = some v) :
    v.isNull = false ∧ ∀ w : Value, w.PartOf v → w.kind.isNarrow = false := by
  unfold kept at h
  split_ifs at h with hnull
  cases h
  refine ⟨?_, fun w hw => isNarrow_of_partOf_normalized hw u rfl⟩
  rw [isNull_normalized]
  simpa using hnull

end Value

/-! ### Histories -/

/-- The call writes to this record. -/
def Call.writesTo (key : Key) : Call → Bool
  | .put k _ => k = key
  | _ => false

theorem Call.writesTo_iff {key : Key} {k : Call} :
    k.writesTo key = true ↔ ∃ bins, k = .put key bins := by
  cases k <;> simp [writesTo]

/-- The values that calls write under a name of a record, in order. -/
def writtenUnder (key : Key) (name : String) (calls : List Call) : List Value :=
  calls.filterMap fun
    | .put k bins => if k = key then bins.find? name else none
    | _ => none

/-- A call that does not write to a record writes under none of its names. -/
theorem writtenUnder_append_of_not_writesTo {key : Key} {k : Call} (name : String)
    (calls : List Call) (h : k.writesTo key = false) :
    writtenUnder key name (calls ++ [k]) = writtenUnder key name calls := by
  rw [writtenUnder, List.filterMap_append]
  cases k with
  | put j bins =>
    have hne : j ≠ key := by simpa [Call.writesTo] using h
    simp [hne, writtenUnder]
  | get | getBatch | scan | query | queryAggregate | anyRecord => simp [writtenUnder]

theorem writtenUnder_append_put (key : Key) (name : String) (bins : Bins) (calls : List Call) :
    writtenUnder key name (calls ++ [.put key bins]) =
      writtenUnder key name calls ++ (bins.find? name).toList := by
  rw [writtenUnder, List.filterMap_append]
  cases h : bins.find? name <;> simp [h, writtenUnder]

namespace MemoryStore

/-- The store in memory after calls. -/
def afterAll (m : MemoryStore) (calls : List Call) : MemoryStore := calls.foldl after m

theorem afterAll_append (m : MemoryStore) (calls : List Call) (k : Call) :
    m.afterAll (calls ++ [k]) = (m.afterAll calls).after k := by
  simp only [afterAll, List.foldl_append, List.foldl_cons, List.foldl_nil]

theorem find?_after_put (m : MemoryStore) (key : Key) (bins : Bins) :
    (m.after (.put key bins)).find? key = some (((m.find? key).getD {}).merge bins) := by
  rw [after, find?_put, if_pos rfl]

/-- A call that does not write to a record leaves it as it is. -/
theorem find?_after_of_not_writesTo (m : MemoryStore) {key : Key} {k : Call}
    (h : k.writesTo key = false) : (m.after k).find? key = m.find? key := by
  cases k with
  | put j bins =>
    have hne : key ≠ j := by
      rintro rfl
      simp [Call.writesTo] at h
    rw [after, find?_put, if_neg hne]
  | get | getBatch | scan | query | queryAggregate | anyRecord => rfl

/-- A record exists once it has been written to. -/
theorem isSome_find?_afterAll (key : Key) (calls : List Call) :
    ((afterAll {} calls).find? key).isSome = true ↔ ∃ bins, .put key bins ∈ calls := by
  induction calls using List.reverseRecOn with
  | nil =>
    have hnone : (afterAll {} []).find? key = none := rfl
    simp [hnone]
  | append_singleton ks k ih =>
    rw [afterAll_append]
    cases hk : k.writesTo key with
    | true =>
      obtain ⟨bins, rfl⟩ := Call.writesTo_iff.mp hk
      rw [find?_after_put]
      exact ⟨fun _ => ⟨bins, by simp⟩, fun _ => rfl⟩
    | false =>
      have hnew : ∀ bins, k ≠ .put key bins := fun bins he => by
        rw [Call.writesTo_iff.mpr ⟨bins, he⟩] at hk
        cases hk
      rw [find?_after_of_not_writesTo _ hk, ih]
      simp [fun bins => (hnew bins).symm]

/-- **A name of a record holds what was last written under it**, in its normal
form, and nothing if that was null. -/
theorem find?_afterAll (key : Key) (name : String) (calls : List Call) :
    (((afterAll {} calls).find? key).getD {}).find? name =
      (writtenUnder key name calls).getLast?.bind Value.kept := by
  induction calls using List.reverseRecOn with
  | nil => rfl
  | append_singleton ks k ih =>
    rw [afterAll_append]
    cases hk : k.writesTo key with
    | true =>
      obtain ⟨bins, rfl⟩ := Call.writesTo_iff.mp hk
      rw [find?_after_put, Option.getD_some, Bins.find?_merge, ih, writtenUnder_append_put]
      cases bins.find? name <;> simp
    | false =>
      rw [find?_after_of_not_writesTo _ hk, ih, writtenUnder_append_of_not_writesTo name ks hk]

/-- **Only its own writes leave a trace in a record.** -/
theorem find?_afterAll_writesTo (key : Key) (calls : List Call) :
    (afterAll {} (calls.filter (·.writesTo key))).find? key = (afterAll {} calls).find? key := by
  induction calls using List.reverseRecOn with
  | nil => rfl
  | append_singleton ks k ih =>
    rw [List.filter_append, afterAll_append]
    cases hk : k.writesTo key with
    | true =>
      have hone : [k].filter (·.writesTo key) = [k] := by simp [hk]
      obtain ⟨bins, rfl⟩ := Call.writesTo_iff.mp hk
      rw [hone, afterAll_append, find?_after_put, find?_after_put, ih]
    | false =>
      have hnone : [k].filter (·.writesTo key) = [] := by simp [hk]
      rw [hnone, List.append_nil, find?_after_of_not_writesTo _ hk, ih]

end MemoryStore

/-! ### What clients find -/

/-- Calls that are made one after the other, whatever their answers. -/
def Client.callAll : List Call → ClientM Unit
  | [] => pure ()
  | k :: ks => do
    let _ ← Client.call k
    Client.callAll ks

/-- A store in memory answers all the calls. -/
theorem Client.Serves.callAll_eq : ∀ (calls : List Call) {c : Client} {m : MemoryStore},
    c.Serves m → ∃ after, Client.callAll calls c = .ok () after ∧ after.Serves (m.afterAll calls)
  | [], c, _, h => ⟨c, rfl, h⟩
  | k :: ks, c, m, h => by
    obtain ⟨after, hrun, hserves⟩ := callAll_eq ks (h.served k)
    refine ⟨after, ?_, hserves⟩
    simp only [Client.callAll, bind, EStateM.bind, h.call_eq]
    exact hrun

/-- What is found under a key after calls on a new store. -/
structure Merged (calls : List Call) (key : Key) (found : Option Bins) : Prop where
  /-- A record is there if one of the calls was a write to exactly this key. -/
  written : found.isSome = true ↔ ∃ bins, .put key bins ∈ calls
  /-- Under a name it holds the value that was written last under the name, in
  its normal form, and nothing if that was null or there is none. -/
  latest : ∀ bins ∈ found, ∀ name,
    bins.find? name = (writtenUnder key name calls).getLast?.bind Value.kept
  /-- No other call has a part in it. -/
  alone : found = (MemoryStore.afterAll {} (calls.filter (·.writesTo key))).find? key
  /-- It holds no null, and no narrow number at any depth. -/
  normal : ∀ bins ∈ found, ∀ name v, bins.find? name = some v →
    v.isNull = false ∧ ∀ w : Value, w.PartOf v → w.kind.isNarrow = false

theorem MemoryStore.merged_afterAll (calls : List Call) (key : Key) :
    Merged calls key ((afterAll {} calls).find? key) := by
  have hlatest : ∀ bins ∈ (afterAll {} calls).find? key, ∀ name,
      bins.find? name = (writtenUnder key name calls).getLast?.bind Value.kept := by
    intro bins hbins name
    rw [← find?_afterAll, Option.mem_def.mp hbins, Option.getD_some]
  refine ⟨isSome_find?_afterAll key calls, hlatest, (find?_afterAll_writesTo key calls).symm,
    fun bins hbins name v hv => ?_⟩
  rw [hlatest bins hbins] at hv
  obtain ⟨u, -, hu⟩ := Option.bind_eq_some_iff.mp hv
  exact Value.normal_of_kept hu

/-- **A store is the merge of its history.** Any calls on a new store in memory
are all answered. What is then found under any key, by itself, together with
others or by a scan of its set, is what the writes to exactly this key have left
there. -/
theorem merged_of_calls (calls : List Call) :
    ∃ (after : Client) (found : Key → Option Bins),
      Client.callAll calls { store := .memory {} } = .ok () after ∧
      (∀ key, ∃ last, Client.get key after = .ok (found key) last) ∧
      (∀ keys, ∃ last, Client.getBatch keys after = .ok (keys.map found) last) ∧
      (∀ home, ∃ rs last, Client.scan home after = .ok (Client.deliver rs) last ∧
        ∀ r, r ∈ rs ↔ ∃ user, r.key = some ⟨home, user⟩ ∧ found ⟨home, user⟩ = some r.bins) ∧
      ∀ key, Merged calls key (found key) := by
  have hfresh : ({ store := .memory {} } : Client).Serves {} := ⟨rfl, rfl⟩
  obtain ⟨after, hrun, hserves⟩ := hfresh.callAll_eq calls
  refine ⟨after, (MemoryStore.afterAll {} calls).find?, hrun, fun key => ?_, fun keys => ?_,
    fun home => ?_, MemoryStore.merged_afterAll calls⟩
  · exact ⟨_, hserves.get_eq key⟩
  · exact ⟨_, hserves.call_eq (.getBatch keys)⟩
  · exact ⟨_, _, hserves.scan_eq home, fun r => MemoryStore.mem_recordsOf⟩

/-- A bin that a null removed comes back with a later write, and a write to
another set leaves it alone. -/
example :
    let key : Key := ⟨⟨"test", "t"⟩, .int 1⟩
    let other : Key := ⟨⟨"test", "u"⟩, .int 1⟩
    let calls : List Call :=
      [.put key (.ofList [("n", .int8 1), ("city", .text "rome")]), .put key (.ofList [("n", .null)]),
        .put other (.ofList [("city", .null)]), .put key (.ofList [("n", .list [.int16 2])])]
    (MemoryStore.afterAll {} calls).find? key =
      some (.ofList [("city", .text "rome"), ("n", .list [.int64 2])]) := by
  decide +kernel

end KeyedRows
