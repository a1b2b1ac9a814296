/-
# Inserted rows are read back

A strict insert leaves under each key the values of its row, and a select that
asks for this key looks the record up and shows it. So every row is read back as
it was inserted: its key, and under every other column the normal form of its
value, null where a null was inserted and nothing was stored.

Key theorem: **`inserted_rows_selected`**.
-/
import KeyedRows.Proofs.Cursor.Fields
import KeyedRows.Proofs.Statement.Insert
import KeyedRows.Proofs.Statement.Select

namespace KeyedRows

/-- An equality on the key column asks for the key. -/
theorem Predicate.condition_equal_key (keyColumn : String) {v : Value} {user : UserKey}
    (home : SetAddress) (h : v.key? = some user) :
    (Predicate.equal keyColumn v).condition? keyColumn home = some (.key ⟨home, user⟩) := by
  have ho : Operator.ofSymbol? (Predicate.equal keyColumn v).operator = some .equal :=
    Operator.ofSymbol?_symbol .equal
  rw [Predicate.condition?, ho]
  simp [Predicate.equal, Predicate.ofOperator, h]

/-- Asking for a key that is stored selects its record. -/
theorem MemoryStore.selected_key {m : MemoryStore} {key : Key} {bins : Bins}
    (h : m.find? key = some bins) : m.selected key.home [.key key] = [⟨some key, bins⟩] := by
  have hone : m.selected key.home [.key key] =
      (m.recordsOf key.home).filter fun r => r.key == some key := by
    refine List.filter_congr fun r _ => ?_
    simp [filtersOf, lastKey, passes]
  rw [hone, recordsOf_filter_key, h]
  rfl

/-! ### Values -/

theorem UserKey.isNull_toValue (u : UserKey) : u.toValue.isNull = false := by
  cases u <;> rfl

theorem Value.isNull_of_key {v : Value} {u : UserKey} (h : v.key? = some u) : v.isNull = false := by
  cases v <;> first | rfl | cases h

section

variable {columns : List String} {place : ℕ} {row : List Value} {name : String} {v : Value}

/-- Among columns with names of their own, each value stands alone under its
name. -/
theorem isValue_iff (hdistinct : columns.Nodup) {j : ℕ} (hj : j ≠ place)
    (hname : columns[j]? = some name) (w : Value) :
    IsValue columns place row name w ↔ row[j]? = some w := by
  have hsame : ∀ j', columns[j']? = some name → j' = j := by
    intro j' hname'
    obtain ⟨hlt, -⟩ := List.getElem?_eq_some_iff.mp hname
    obtain ⟨hlt', -⟩ := List.getElem?_eq_some_iff.mp hname'
    exact (List.getElem?_inj hlt' hdistinct).mp (hname'.trans hname.symm)
  constructor
  · rintro ⟨j', -, hname', hw, -⟩
    rwa [hsame j' hname'] at hw
  · intro hw
    refine ⟨j, hj, hname, hw, fun j' hlt _ hname' => ?_⟩
    rw [hsame j' hname'] at hlt
    exact absurd hlt (lt_irrefl j)

/-- The bins that hold the values of a row give each of them in its normal
form, a null where nothing is held. -/
theorem read_of_holds {bins : Bins}
    (hbins : ∀ name v, bins.find? name = some v ↔ Holds columns place row name v)
    (hdistinct : columns.Nodup) {j : ℕ} (hj : j ≠ place) (hname : columns[j]? = some name)
    (hv : row[j]? = some v) : bins.read name = v.normalized := by
  have hvalue : ∀ w, IsValue columns place row name w ↔ w = v := by
    intro w
    rw [isValue_iff hdistinct hj hname, hv, Option.some.injEq, eq_comm]
  unfold Bins.read
  cases hnull : v.isNull with
  | true =>
    have hnone : bins.find? name = none := by
      refine Option.eq_none_iff_forall_ne_some.mpr fun x hx => ?_
      obtain ⟨w, hw, hw0, -⟩ := (hbins name x).mp hx
      rw [(hvalue w).mp hw, hnull] at hw0
      cases hw0
    have hv0 : v = .null := by
      cases v <;> first | rfl | cases hnull
    rw [hnone, hv0]
    rfl
  | false =>
    have hsome : bins.find? name = some v.normalized :=
      (hbins name v.normalized).mpr ⟨v, (hvalue v).mpr rfl, hnull, rfl⟩
    rw [hsome]
    rfl

end

/-- An insert is directed into the set that it is built for, and the key column
is among its columns. -/
theorem Insert.home_of_ofRows {settings : Settings} {setName : String} {columns : List String}
    {rows : List (List Value)} {i : Insert}
    (h : Insert.ofRows settings setName columns rows = .ok i) :
    i.home = ⟨settings.space, setName⟩ ∧ settings.keyColumn ∈ columns := by
  unfold Insert.ofRows at h
  cases hidx : columns.findIdx? (· == settings.keyColumn) with
  | none =>
    rw [hidx] at h
    cases h
  | some n =>
    rw [hidx] at h
    cases h
    obtain ⟨hlt, heq, -⟩ := List.findIdx?_eq_some_iff_getElem.mp hidx
    exact ⟨rfl, beq_iff_eq.mp heq ▸ List.getElem_mem hlt⟩

/-- Every row of an insert that succeeded has a value for every column and a
literal in the key column, and the store holds its values under the key that
this literal is. -/
theorem Insert.stored_of_run {settings : Settings} {setName : String} {columns : List String}
    {rows : List (List Value)} {i : Insert}
    (hi : Insert.ofRows settings setName columns rows = .ok i) {m : MemoryStore} {cl : Client}
    (hm : cl.Serves m) {n : ℕ} {inserted : Client} (hrun : i.run cl = .ok n inserted)
    {row : List Value} (hrow : row ∈ rows) :
    ∃ literal user bins m', row.length = columns.length ∧
      row[columns.idxOf settings.keyColumn]? = some literal ∧
      literal.key? = some user ∧ inserted.Serves m' ∧
      m'.find? ⟨⟨settings.space, setName⟩, user⟩ = some bins ∧
      ∀ name v, bins.find? name = some v ↔
        Holds columns (columns.idxOf settings.keyColumn) row name v := by
  obtain ⟨hcolumns, hrows, hplace, hmode⟩ := Insert.ofRows_eq_ok hi
  obtain ⟨hhome, -⟩ := Insert.home_of_ofRows hi
  obtain ⟨hok, -, m', hm', hinserted⟩ := Insert.inserted_of_run hm hmode hrun
  rw [hcolumns, hrows, hplace, hhome] at hok hinserted
  obtain ⟨user, huser⟩ := Option.isSome_iff_exists.mp (hok.literals row hrow)
  obtain ⟨bins, hfind, hbins⟩ := hinserted.written row hrow user huser
  obtain ⟨literal, hliteral, hliteralKey⟩ := Option.bind_eq_some_iff.mp huser
  exact ⟨literal, user, bins, m', hok.lengths row hrow, hliteral, hliteralKey, hm', hfind, hbins⟩

/-- What a cursor that shows the record of an inserted row reads under the
columns of the row. -/
theorem reading_of_inserted {settings : Settings} (hkey : settings.special.key = true)
    {columns : List String} (hdistinct : columns.Nodup) (hdigest : settings.digestColumn ∉ columns)
    {row : List Value} {literal : Value}
    (hliteral : row[columns.idxOf settings.keyColumn]? = some literal) (key : Key)
    (hliteralKey : literal.key? = some key.user) {bins : Bins}
    (hbins : ∀ name v, bins.find? name = some v ↔
      Holds columns (columns.idxOf settings.keyColumn) row name v)
    {projected : List Column} (hprojected : Projects columns projected) {j : ℕ} {name : String}
    {v : Value} (hname : columns[j]? = some name) (hv : row[j]? = some v) :
    ∃ w, RecordCursor.reading projected settings ⟨some key, bins⟩ name = .ok w ∧
      w = (if name = settings.keyColumn then key.user.toValue else v.normalized) ∧
      w.isNull = v.isNull := by
  have hmem : name ∈ columns := List.mem_of_getElem? hname
  obtain ⟨role, hrole⟩ := RecordCursor.resolveLabel_projects hprojected hmem
  refine ⟨_, RecordCursor.reading_of_resolveLabel hrole _, ?_⟩
  by_cases hcolumn : name = settings.keyColumn
  · have hj : columns.idxOf settings.keyColumn = j := by
      obtain ⟨hlt, hat⟩ := List.getElem?_eq_some_iff.mp hname
      rw [← hcolumn, ← hat]
      exact hdistinct.idxOf_getElem j hlt
    have hvl : v = literal := by
      rw [hj, hv] at hliteral
      exact Option.some.inj hliteral
    rw [if_pos hcolumn, hcolumn, RecordCursor.fieldOf_keyColumn hkey rfl]
    exact ⟨rfl, by rw [UserKey.isNull_toValue, hvl, Value.isNull_of_key hliteralKey]⟩
  · have hj : j ≠ columns.idxOf settings.keyColumn := by
      rintro rfl
      obtain ⟨hlt, hat⟩ := List.getElem?_eq_some_iff.mp hname
      exact hcolumn (hat.symm.trans (List.getElem_idxOf hlt))
    have hshown : ¬ Shadowed settings name role := by
      rintro (⟨h, -⟩ | ⟨h, -⟩)
      · exact hcolumn h
      · exact hdigest (h ▸ hmem)
    rw [if_neg hcolumn, RecordCursor.fieldOf_stored hshown,
      read_of_holds hbins hdistinct hj hname hv]
    exact ⟨rfl, Value.isNull_normalized v⟩

/-- **Every inserted row is read back.** After a strict insert that succeeded, a
select of the key of any of its rows comes to exactly one row. There the key
column reads the key, and every other inserted column the normal form of the
value of the row. -/
theorem inserted_rows_selected (settings : Settings) (hkey : settings.special.key = true)
    (setName : String) (columns : List String) (hdistinct : columns.Nodup)
    (hdigest : settings.digestColumn ∉ columns) (rows : List (List Value)) (i : Insert)
    (hi : Insert.ofRows settings setName columns rows = .ok i) (m : MemoryStore) (cl : Client)
    (hm : cl.Serves m) (n : ℕ) (inserted : Client) (hrun : i.run cl = .ok n inserted)
    (row : List Value) (hrow : row ∈ rows) (projected : List Column)
    (hprojected : Projects columns projected) (discovers : Bool) :
    ∃ literal user s cursor opened on off,
      row[columns.idxOf settings.keyColumn]? = some literal ∧ literal.key? = some user ∧
      Select.prepare settings (some setName) projected
        [.equal settings.keyColumn literal] = .ok s ∧
      ({ s with discovers } : Select).run inserted = .ok cursor opened ∧
      RowCursor.next (cursor, opened) = .ok true on ∧ RowCursor.next on = .ok false off ∧
      ∀ (j : ℕ) (name : String), columns[j]? = some name → ∃ v t, row[j]? = some v ∧
        RowCursor.getObject name on =
          .ok (if name = settings.keyColumn then user.toValue else v.normalized) t ∧
        (RowCursor.state t.1).wasNull = v.isNull := by
  obtain ⟨literal, user, bins, m', hlength, hliteral, hliteralKey, hm', hfind, hbins⟩ :=
    Insert.stored_of_run hi hm hrun hrow
  let key : Key := ⟨⟨settings.space, setName⟩, user⟩
  have hasked := Predicate.condition_equal_key settings.keyColumn key.home hliteralKey
  obtain ⟨s, opened, hprepare, cursor, last, hopen, hvisits⟩ :=
    select_of_condition projected hasked discovers hm'
  rw [MemoryStore.selected_key hfind] at hvisits
  obtain ⟨on, hnext, hshows, hend⟩ := hvisits.of_singleton
  refine ⟨literal, user, s, cursor, opened, on, (last, opened), hliteral, hliteralKey, hprepare,
    hopen, hnext, hend, fun j name hname => ?_⟩
  have hlt : j < row.length := hlength ▸ (List.getElem?_eq_some_iff.mp hname).1
  have hv : row[j]? = some row[j] := List.getElem?_eq_getElem hlt
  obtain ⟨w, hreading, rfl, hnull⟩ := reading_of_inserted hkey hdistinct hdigest hliteral
    key hliteralKey hbins hprojected hname hv
  obtain ⟨t, hget, hwas⟩ := Cursor.wasNull_of_getObject ((hshows.reads.getObject name).trans hreading)
  exact ⟨row[j], t, hv, hget, hwas.trans hnull⟩

/-- A row with a narrow key, a null and nested values is read back by a wildcard
from a set that has a record. -/
theorem inserted_row_of_nested_values_selected :
    let columns := ["n", "PK", "doc"]
    let row : List Value := [.null, .int32 7, .map [("a", .list [.int8 1, .null])]]
    let rows := [[.bool true, .text "a", .int16 5], row]
    let home : SetAddress := ⟨"test", "t"⟩
    let i : Insert := { home, columns, rows, keyIndex := 1, keyColumn := "PK" }
    let m := MemoryStore.put {} ⟨home, .int 1⟩ {}
    let cl : Client := { store := .memory m }
    let projected : List Column := [{ name := "*", schema := "test", table := "t" }]
    Insert.ofRows {} "t" columns rows = .ok i ∧ cl.Serves m ∧
      ∃ inserted, i.run cl = .ok 2 inserted ∧
      ∃ literal user s cursor opened on off, row[columns.idxOf "PK"]? = some literal ∧
        literal.key? = some user ∧
        Select.prepare {} (some "t") projected [.equal "PK" literal] = .ok s ∧
        ({ s with discovers := true } : Select).run inserted = .ok cursor opened ∧
        RowCursor.next (cursor, opened) = .ok true on ∧ RowCursor.next on = .ok false off ∧
        ∀ (j : ℕ) (name : String), columns[j]? = some name → ∃ v t, row[j]? = some v ∧
          RowCursor.getObject name on =
            .ok (if name = "PK" then user.toValue else v.normalized) t ∧
          (RowCursor.state t.1).wasNull = v.isNull := by
  intro columns row rows home i m cl projected
  have hi : Insert.ofRows {} "t" columns rows = .ok i := rfl
  have hm : cl.Serves m := ⟨rfl, rfl⟩
  have hwritten : EStateM.run' i.run cl = some 2 := by decide +kernel
  have hprojected : Projects columns projected := .inl ⟨_, rfl, rfl⟩
  cases hrun : i.run cl with
  | error e after =>
    rw [EStateM.run', EStateM.run, hrun] at hwritten
    cases hwritten
  | ok n inserted =>
    rw [EStateM.run', EStateM.run, hrun] at hwritten
    cases hwritten
    exact ⟨hi, hm, inserted, rfl, inserted_rows_selected {} rfl "t" columns (by decide) (by decide)
      rows i hi m cl hm 2 inserted hrun row (by simp [rows]) projected hprojected true⟩

end KeyedRows
