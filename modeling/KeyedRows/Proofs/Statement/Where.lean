/-
# Conditions and what the cursor shows

A select compares every record of its set with what its predicate asks for,
and its cursor shows values of the records. Where the predicate asks for a key,
or filters by a field that the cursor shows as it is stored, both speak of one
value (`ShowsCompared`): a record is selected exactly if the value that the
cursor shows of it meets the condition.

A filter on the key column or on a shown digest compares what is stored under
that name, mostly nothing, and not what the cursor shows there. So a range of
keys selects no record that has no bin of this name (`absent_bin_selects_none`),
whatever its key is.

Key definitions: `Condition.HoldsOf`, `ShowsCompared`.
Key theorem: **`select_agrees_with_shown`**.
-/
import KeyedRows.Proofs.Cursor.Fields
import KeyedRows.Proofs.Statement.Select

namespace KeyedRows

/-- The value meets the condition: it is the key, equals the text or the
integer, or is an integer in the range with both ends. Integers of all widths
count. -/
def Condition.HoldsOf : Condition → Value → Prop
  | .key k, v => v = k.user.toValue
  | .filter (.equals _ (.text s)), v => v = .text s
  | .filter (.equals _ (.int n)), v => v.toInt64? = some n
  | .filter (.within _ low high), v => ∃ n, v.toInt64? = some n ∧ low ≤ n ∧ n ≤ high

/-- What the cursor shows as this field is what a condition on the column is
compared with: the key, or the bin that is stored under the name of the
column. -/
def ShowsCompared (settings : Settings) (column name : String) (role : ColumnRole) :
    Condition → Prop
  | .key _ => name = settings.keyColumn
  | .filter _ => name = column ∧ ¬ Shadowed settings name role

/-! ### Values and conditions -/

namespace Filter

theorem acceptsValue_iff (f : Filter) (v : Value) :
    f.acceptsValue v = true ↔ (Condition.filter f).HoldsOf v := by
  cases f with
  | equals bin operand =>
    cases operand with
    | int n => simp [acceptsValue, Condition.HoldsOf]
    | text s =>
      cases v with
      | text t =>
        simp only [acceptsValue, Condition.HoldsOf, beq_iff_eq, Value.text.injEq]
        exact eq_comm
      | _ => simp [acceptsValue, Condition.HoldsOf]
  | within bin low high =>
    simp only [acceptsValue, Condition.HoldsOf]
    cases v.toInt64? <;> simp

/-- No filter accepts a null. -/
theorem acceptsValue_null (f : Filter) : f.acceptsValue .null = false := by
  obtain ⟨bin, n | s⟩ | ⟨bin, low, high⟩ := f <;> rfl

/-- A filter accepts a record by what is read under its bin. -/
theorem accepts_iff (f : Filter) (bins : Bins) :
    f.accepts bins = true ↔ (Condition.filter f).HoldsOf (bins.read f.bin) := by
  rw [← acceptsValue_iff, accepts, Bins.read]
  cases bins.find? f.bin with
  | none => simp [acceptsValue_null]
  | some v => rfl

end Filter

theorem UserKey.toValue_injective : Function.Injective UserKey.toValue := by
  intro u v h
  cases u <;> cases v <;> simp_all [UserKey.toValue]

/-! ### One predicate -/

namespace MemoryStore

variable {m : MemoryStore} {home : SetAddress} {r : Record}

/-- One condition selects the records that have its key or pass its filter. -/
theorem mem_selected_singleton {c : Condition} : r ∈ m.selected home [c] ↔
    r ∈ m.recordsOf home ∧ match c with
      | .key key => r.key = some key
      | .filter f => f.accepts r.bins = true := by
  rw [selected, List.mem_filter]
  cases c <;> simp [filtersOf, lastKey, passes]

/-- A key selects the record whose key reads as it does. -/
theorem mem_selected_key {user : UserKey} (hr : r ∈ m.recordsOf home) {own : UserKey}
    (hown : r.key = some ⟨home, own⟩) :
    r ∈ m.selected home [.key ⟨home, user⟩] ↔
      (Condition.key ⟨home, user⟩).HoldsOf own.toValue := by
  rw [mem_selected_singleton, Condition.HoldsOf, UserKey.toValue_injective.eq_iff, hown]
  simp [hr]

/-- A filter selects the records whose bin meets it. -/
theorem mem_selected_filter {f : Filter} (hr : r ∈ m.recordsOf home) :
    r ∈ m.selected home [.filter f] ↔ (Condition.filter f).HoldsOf (r.bins.read f.bin) := by
  rw [mem_selected_singleton, ← f.accepts_iff]
  simp [hr]

end MemoryStore

/-- **A select without predicates shows every record of its set.** -/
theorem select_all (settings : Settings) (setName : String) (columns : List Column)
    (discovers : Bool) {m : MemoryStore} {cl : Client} (hm : cl.Serves m) :
    ∃ s after, Select.prepare settings (some setName) columns [] = .ok s ∧
      Yields ({ s with discovers } : Select).run (RecordCursor.reading columns settings) cl
        (m.recordsOf ⟨settings.space, setName⟩) after := by
  have hcs : ([] : List Predicate).map
      (·.condition? settings.keyColumn ⟨settings.space, setName⟩) = ([] : List Condition).map some :=
    rfl
  obtain ⟨s, after, hprepare, hyields, -⟩ := select_of_conditions columns hcs discovers hm
  have hall : m.selected ⟨settings.space, setName⟩ [] = m.recordsOf ⟨settings.space, setName⟩ :=
    List.filter_eq_self.mpr fun _ _ => rfl
  exact ⟨s, after, hprepare, hall ▸ hyields⟩

/-- **A filter on a column under which nothing is stored selects nothing**, also
where the cursor shows the key or the digest in this column. -/
theorem absent_bin_selects_none {settings : Settings} {setName : String} (columns : List Column)
    {p : Predicate} {f : Filter}
    (hc : p.condition? settings.keyColumn ⟨settings.space, setName⟩ = some (.filter f))
    (discovers : Bool) {m : MemoryStore} {cl : Client} (hm : cl.Serves m)
    (habsent : ∀ r ∈ m.recordsOf ⟨settings.space, setName⟩, r.bins.find? p.column = none) :
    ∃ s after, Select.prepare settings (some setName) columns [p] = .ok s ∧
      Yields ({ s with discovers } : Select).run (RecordCursor.reading columns settings) cl []
        after := by
  obtain ⟨s, after, hprepare, hyields⟩ := select_of_condition columns hc discovers hm
  have hnone : m.selected ⟨settings.space, setName⟩ [.filter f] = [] := by
    refine List.eq_nil_iff_forall_not_mem.mpr fun r hr => ?_
    obtain ⟨hstored, haccepts⟩ := MemoryStore.mem_selected_singleton.mp hr
    simp only [Filter.accepts, Predicate.bin_of_condition hc, habsent r hstored] at haccepts
    cases haccepts
  exact ⟨s, after, hprepare, hnone ▸ hyields⟩

/-- **What a predicate selects is what the cursor shows to meet it**, where the
cursor shows what the predicate compares: the key, or a field as it is stored.
Everywhere else a filter compares what is stored under the name of its
column. -/
theorem select_agrees_with_shown (settings : Settings) (hkey : settings.special.key = true)
    (setName : String) (columns : List Column) (p : Predicate) (c : Condition)
    (hc : p.condition? settings.keyColumn ⟨settings.space, setName⟩ = some c) (name : String)
    (role : ColumnRole) (hlabel : RecordCursor.resolveLabel columns p.column = .ok (name, role))
    (discovers : Bool) (m : MemoryStore) (cl : Client) (hm : cl.Serves m) :
    let all := m.recordsOf ⟨settings.space, setName⟩
    ∃ s after rows, Select.prepare settings (some setName) columns [p] = .ok s ∧
      Yields ({ s with discovers } : Select).run (RecordCursor.reading columns settings) cl rows
        after ∧ rows.Sublist all ∧
      ∀ r ∈ all, ∃ v, RecordCursor.reading columns settings r p.column = .ok v ∧
        (ShowsCompared settings p.column name role c → (r ∈ rows ↔ c.HoldsOf v)) ∧
        ∀ f, c = .filter f → (r ∈ rows ↔ c.HoldsOf (r.bins.read p.column)) := by
  intro all
  obtain ⟨s, after, hprepare, hyields⟩ := select_of_condition columns hc discovers hm
  refine ⟨s, after, _, hprepare, hyields, List.filter_sublist, fun r hr => ?_⟩
  refine ⟨_, RecordCursor.reading_of_resolveLabel hlabel r, ?_⟩
  obtain ⟨own, hown, -⟩ := MemoryStore.mem_recordsOf.mp hr
  rcases Predicate.condition_cases hc with ⟨user, -, rfl⟩ | ⟨f, rfl, -⟩
  · refine ⟨fun hname => ?_, fun f hf => by cases hf⟩
    have hname : name = settings.keyColumn := hname
    rw [hname, RecordCursor.fieldOf_keyColumn hkey hown]
    exact MemoryStore.mem_selected_key hr hown
  · have hstored : r ∈ m.selected ⟨settings.space, setName⟩ [.filter f] ↔
        (Condition.filter f).HoldsOf (r.bins.read p.column) := by
      rw [← Predicate.bin_of_condition hc]
      exact MemoryStore.mem_selected_filter hr
    refine ⟨fun hshows => ?_, fun _ _ => hstored⟩
    obtain ⟨rfl, hshown⟩ := hshows
    rw [RecordCursor.fieldOf_stored hshown]
    exact hstored

/-- A range on a stored field, over two records of which one has no such
field. -/
theorem year_range_agrees_with_shown :
    let home : SetAddress := ⟨"test", "people"⟩
    let p := Predicate.ofSymbol "year" "between" [.int32 1990, .int16 2000]
    let c := Condition.filter (.within "year" 1990 2000)
    let columns : List Column := [{ name := "*", schema := "test", table := "people" }]
    let m := (MemoryStore.put {} ⟨home, .int 1⟩ (.ofList [("year", .int16 1995)])).put
      ⟨home, .text "a"⟩ {}
    let cl : Client := { store := .memory m }
    let values := RecordCursor.reading columns {}
    p.condition? "PK" home = some c ∧
      RecordCursor.resolveLabel columns "year" = .ok ("year", .data) ∧ cl.Serves m ∧
      ∃ s after rows, Select.prepare {} (some "people") columns [p] = .ok s ∧
        Yields ({ s with discovers := false } : Select).run values cl rows after ∧
        rows.Sublist (m.recordsOf home) ∧
        ∀ r ∈ m.recordsOf home, ∃ v, values r "year" = .ok v ∧ (r ∈ rows ↔ c.HoldsOf v) := by
  intro home p c columns m cl values
  have hc : p.condition? "PK" home = some c := by cbv
  have hlabel : RecordCursor.resolveLabel columns "year" = .ok ("year", .data) := by
    decide +kernel
  have hm : cl.Serves m := ⟨rfl, rfl⟩
  have hshows : ShowsCompared {} "year" "year" .data c := by
    refine ⟨rfl, ?_⟩
    rintro (⟨h, -⟩ | ⟨h, -⟩)
    · exact absurd h (by decide)
    · exact absurd h (by decide)
  obtain ⟨s, after, rows, hprepare, hyields, hsub, hagree⟩ :=
    select_agrees_with_shown {} rfl "people" columns p c hc "year" .data hlabel false m cl hm
  refine ⟨hc, hlabel, hm, s, after, rows, hprepare, hyields, hsub, fun r hr => ?_⟩
  obtain ⟨v, hv, hiff, -⟩ := hagree r hr
  exact ⟨v, hv, hiff hshows⟩

/-- The cursor shows the key 2 in the key column, which is in the range from 2
on, and the select of this range has no row. -/
theorem shown_key_in_range_not_selected :
    let home : SetAddress := ⟨"test", "t"⟩
    let p := Predicate.ofSymbol "PK" ">" [.int64 2]
    let c := Condition.filter (.within "PK" 2 Int64.maxValue)
    let columns : List Column := [{ name := "*", schema := "test", table := "t" }]
    let r : Record := ⟨some ⟨home, .int 2⟩, .ofList [("n", .int64 20)]⟩
    let cl : Client := { store := .memory (MemoryStore.put {} ⟨home, .int 2⟩ r.bins) }
    let values := RecordCursor.reading columns {}
    p.condition? "PK" home = some c ∧ values r "PK" = .ok (.int64 2) ∧ c.HoldsOf (.int64 2) ∧
      (∃ s after, Select.prepare {} (some "t") columns [] = .ok s ∧
        Yields ({ s with discovers := false } : Select).run values cl [r] after) ∧
      ∃ s after, Select.prepare {} (some "t") columns [p] = .ok s ∧
        Yields ({ s with discovers := false } : Select).run values cl [] after := by
  intro home p c columns r cl values
  have hc : p.condition? "PK" home = some c := by cbv
  have hv : values r "PK" = .ok (.int64 2) := by rfl
  have hholds : c.HoldsOf (.int64 2) := ⟨2, rfl, by decide, by decide⟩
  have hm : cl.Serves (MemoryStore.put {} ⟨home, .int 2⟩ r.bins) := ⟨rfl, rfl⟩
  have hall : (MemoryStore.put {} ⟨home, .int 2⟩ r.bins).recordsOf home = [r] := by decide +kernel
  have habsent : ∀ r' ∈ (MemoryStore.put {} ⟨home, .int 2⟩ r.bins).recordsOf home,
      r'.bins.find? p.column = none := by
    rw [hall]
    decide +kernel
  exact ⟨hc, hv, hholds, hall ▸ select_all {} "t" columns false hm,
    absent_bin_selects_none columns hc false hm habsent⟩

end KeyedRows
