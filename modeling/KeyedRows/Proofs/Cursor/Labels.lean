/-
# Labels that are found and read

Finding a label looks for the first column shown that has it as label or name;
reading it looks for a column with this label first, hidden or not, and for one
of this name only then. So the label of the column that was found is read from
that column, and the label that was asked for is read from it unless another
column is labelled so (`found_label_reads`).

Key definitions: `FoundAt`.
Key theorem: **`found_label_reads`**.
-/
import KeyedRows.Proofs.Cursor.Fields
import KeyedRows.Proofs.Cursor.Metadata

namespace KeyedRows

open CursorM CursorCall

/-- Where no two elements have the same value, it is found again at its
element. -/
theorem find?_of_nodup_map {α β : Type} [BEq β] [LawfulBEq β] {f : α → β} {l : List α}
    (h : (l.map f).Nodup) {a : α} (ha : a ∈ l) : l.find? (fun x => f x == f a) = some a := by
  have hsome : (l.find? fun x => f x == f a).isSome = true :=
    List.find?_isSome.mpr ⟨a, ha, beq_self_eq_true _⟩
  obtain ⟨x, hx⟩ := Option.isSome_iff_exists.mp hsome
  have hfx : f x = f a := by simpa using List.find?_some hx
  rw [hx, List.inj_on_of_nodup_map h (List.mem_of_find?_eq_some hx) ha hfx]

/-- What is found among metadata is found among the columns that they tell. -/
theorem Describes.findColumn {m : ResultMetadata} {columns : List Column} (h : Describes m columns)
    {label : String} {i : ℕ} (hi : m.findColumn label = .ok i) :
    ∃ v, (Discovery.shown columns)[i]? = some v ∧ (v.displayLabel = label ∨ v.name = label) ∧
      m.columnLabel i = .ok v.displayLabel := by
  unfold ResultMetadata.findColumn at hi
  cases hfind : m.visible.findIdx? fun c => c.displayLabel == label || c.name == label with
  | none =>
    rw [hfind] at hi
    cases hi
  | some j =>
    rw [hfind] at hi
    cases hi
    obtain ⟨hlt, hmatch, -⟩ := List.findIdx?_eq_some_iff_getElem.mp hfind
    have htold := congrArg (·[i]?) h
    simp only [List.getElem?_map, List.getElem?_eq_getElem hlt, Option.map_some] at htold
    obtain ⟨v, hv, htitle⟩ := Option.map_eq_some_iff.mp htold.symm
    obtain ⟨hname, hlabel⟩ := Prod.mk.inj htitle
    refine ⟨v, hv, ?_, ?_⟩
    · rw [hname, hlabel]
      simpa using hmatch
    · simp only [ResultMetadata.columnLabel, ResultMetadata.columnAt,
        List.getElem?_eq_getElem hlt, Except.map, hlabel]

namespace RowCursor

/-- A label is found in the metadata that are answered. -/
theorem metadata_of_findColumn {γ : Type} [RowCursor γ] {label : String} {i : ℕ}
    {s t : γ × Client} (h : RowCursor.findColumn label s = .ok i t) :
    ∃ m, RowCursor.metadata s = .ok m t ∧ m.findColumn label = .ok i := by
  obtain ⟨c, cl⟩ := s
  rw [findColumn_apply] at h
  cases hm : (RowCursor.metadata (c, cl) : EStateM.Result Error (γ × Client) ResultMetadata) with
  | error e u =>
    rw [hm] at h
    cases h
  | ok m u =>
    rw [hm] at h
    cases hfind : m.findColumn label with
    | error e =>
      simp only [hfind] at h
      cases h
    | ok j =>
      simp only [hfind] at h
      cases h
      exact ⟨m, rfl, hfind⟩

end RowCursor

namespace RecordCursor

variable {columns : List Column} {label : String}

/-! ### The column that a label means -/

/-- **A label means the column with this label**, and where there is none, the
one of this name. -/
theorem resolveLabel_column (hwild : ∀ c ∈ columns, c.isWildcard = false)
    (hnames : (columns.map (·.name)).Nodup) {v : Column} (hv : v ∈ columns)
    (h : v.displayLabel = label ∨ v.name = label) :
    let w := (columns.find? (·.displayLabel == label)).getD v
    resolveLabel columns label = .ok (w.name, w.role) := by
  intro w
  unfold resolveLabel
  cases hfind : columns.find? (·.displayLabel == label) with
  | some u =>
    have hw : w = u := by simp [w, hfind]
    simp [hwild u (List.mem_of_find?_eq_some hfind), hw]
  | none =>
    have hw : w = v := by simp [w, hfind]
    have hname : v.name = label := by
      rcases h with hl | hn
      · have hnot := List.find?_eq_none.mp hfind v hv
        rw [hl] at hnot
        simp at hnot
      · exact hn
    have hfound : columns.find? (·.name == label) = some v :=
      hname ▸ find?_of_nodup_map hnames hv
    simp [hfound, hwild v hv, hw]

theorem resolveLabel_displayLabel (hwild : ∀ c ∈ columns, c.isWildcard = false)
    (hnames : (columns.map (·.name)).Nodup) (hlabels : (columns.map Column.displayLabel).Nodup)
    {v : Column} (hv : v ∈ columns) :
    resolveLabel columns v.displayLabel = .ok (v.name, v.role) := by
  have h := resolveLabel_column hwild hnames hv (.inl rfl)
  rwa [find?_of_nodup_map hlabels hv] at h

/-- The column that a label means has one property exactly if every column
labelled so has it. -/
theorem forall_labelled_iff (hlabels : (columns.map Column.displayLabel).Nodup) {v : Column}
    {p : Column → Prop} (hp : p v) :
    p ((columns.find? (·.displayLabel == label)).getD v) ↔
      ∀ w ∈ columns, w.displayLabel = label → p w := by
  constructor
  · rintro h w hw rfl
    rwa [find?_of_nodup_map hlabels hw] at h
  · intro h
    cases hfind : columns.find? (·.displayLabel == label) with
    | none => exact hp
    | some u =>
      exact h u (List.mem_of_find?_eq_some hfind) (by simpa using List.find?_some hfind)

/-! ### What is read -/

/-- What getters make of a label that was found at an index, where the column
`v` is shown, on a row with the record `r`. -/
structure FoundAt (columns : List Column) (settings : Settings) (label : String) (i : ℕ)
    (s : RecordCursor × Client) (v : Column) (r : Record) : Prop where
  shown : (Discovery.shown columns)[i]? = some v
  row : s.1.current = some r
  /-- The metadata tell the label of this column, -/
  told : ∃ m, CursorCall.metadata.answer s = .ok m ∧ m.columnLabel i = .ok v.displayLabel
  /-- and the getter of that label reads its field. -/
  ofLabel : (CursorCall.getObject v.displayLabel).answer s =
    .ok (fieldOf settings r v.name v.role)
  /-- The label that was found is read from the column labelled so, and only where
  there is none from this one. -/
  ofFound : (CursorCall.getObject label).answer s =
    let w := (columns.find? (·.displayLabel == label)).getD v
    .ok (fieldOf settings r w.name w.role)
  /-- So both read the same exactly if no column labelled so has another value. -/
  same_iff : (CursorCall.getObject label).answer s = (CursorCall.getObject v.displayLabel).answer s ↔
    ∀ w ∈ columns, w.displayLabel = label →
      fieldOf settings r w.name w.role = fieldOf settings r v.name v.role

/-- On a row a cursor is open. -/
theorem Settled.placed_of_row {c : RecordCursor} (h : Settled c)
    (hrow : c.state.ensureRow = .ok ()) : WellPlaced c ∧ ∃ r, c.current = some r := by
  rcases h with h | hclosed
  · refine ⟨h, Option.isSome_iff_exists.mp ?_⟩
    rw [h.ensureRow] at hrow
    split_ifs at hrow with hc
    exact hc
  · cases (CursorState.ensureRow_eq_ok.mp hrow).1.symm.trans hclosed

variable {settings : Settings}

/-- A getter reads the field of the column that its label means. -/
theorem getObject_column {s : RecordCursor × Client} (h : WellPlaced s.1)
    (hc : Described columns settings s.1) {r : Record} (hr : s.1.current = some r) {w : Column}
    (hw : resolveLabel columns label = .ok (w.name, w.role)) :
    (CursorCall.getObject label).answer s = .ok (fieldOf settings r w.name w.role) := by
  rw [(reads_of_current h hr).getObject, hc.sameColumns, hc.sameSettings]
  exact reading_of_resolveLabel hw r

theorem Described.foundAt (hwild : ∀ c ∈ columns, c.isWildcard = false)
    (hnames : (columns.map (·.name)).Nodup) (hlabels : (columns.map Column.displayLabel).Nodup)
    {s : RecordCursor × Client} (h : Described columns settings s.1) (hs : Settled s.1)
    (hrow : s.1.state.ensureRow = .ok ()) {i : ℕ}
    (hi : (CursorCall.findColumn label).answer s = .ok i) :
    ∃ v r, s.1.current = some r ∧
      FoundAt columns settings label i ((CursorCall.findColumn label).after s) v r := by
  obtain ⟨hplaced, r, hr⟩ := hs.placed_of_row hrow
  obtain ⟨c, cl⟩ := s
  cases hrun : (CursorCall.findColumn label).run (c, cl) with
  | error e t =>
    rw [answer_error hrun] at hi
    cases hi
  | ok j t =>
    rw [answer_ok hrun] at hi
    cases hi
    have hlooked := findColumn_asked hplaced label cl
    rw [hrun] at hlooked
    have hdescribed : Described columns settings t.1 :=
      after_ok hrun ▸ h.after (k := .findColumn label) hwild
    have hcurrent : t.1.current = some r := hlooked.place.current.trans hr
    obtain ⟨m, hm, hfind⟩ := RowCursor.metadata_of_findColumn hrun
    have htells : Describes m columns :=
      (h.metadata_asked hwild cl).2 m (answer_ok (k := .metadata) hm)
    obtain ⟨v, hv, hmatch, hlabel⟩ := htells.findColumn hfind
    have hmem : v ∈ columns := (List.mem_filter.mp (List.mem_of_getElem? hv)).1
    have hofLabel := getObject_column hlooked.placed hdescribed hcurrent
      (resolveLabel_displayLabel hwild hnames hlabels hmem)
    have hofFound := getObject_column hlooked.placed hdescribed hcurrent
      (resolveLabel_column hwild hnames hmem hmatch)
    rw [after_ok hrun]
    -- the metadata that the label was found in are kept, so they are answered again
    refine ⟨v, r, hr, hv, hcurrent, ⟨m, ?_, hlabel⟩, hofLabel, hofFound, ?_⟩
    · exact answer_ok (k := .metadata) (getMetadata_again hplaced hm)
    · rw [hofLabel, hofFound, Except.ok.injEq]
      exact forall_labelled_iff hlabels
        (p := fun w => fieldOf settings r w.name w.role = fieldOf settings r v.name v.role) rfl

/-- **What is read under a label that was found.** On a row, after any calls, and
where no two columns share a name or a label: the label of the column found is
read from that column, and so is the label that was asked for, unless another
column is labelled so and has another value. -/
theorem found_label_reads (home : SetAddress) (columns : List Column) (settings : Settings)
    (stream : RecordStream) (fallback : Fallback) (metadata : Option ResultMetadata)
    (cl : Client) (calls : List CursorCall) (label : String) (i : ℕ)
    (hwild : ∀ c ∈ columns, c.isWildcard = false) (hnames : (columns.map (·.name)).Nodup)
    (hlabels : (columns.map Column.displayLabel).Nodup)
    (hknown : ∀ m, metadata = some m → Describes m columns) :
    let start : RecordCursor := { home, columns, settings, stream, fallback, metadata }
    let s := afterAll (start, cl) calls
    s.1.state.ensureRow = .ok () → (CursorCall.findColumn label).answer s = .ok i →
      ∃ v r, s.1.current = some r ∧
        FoundAt columns settings label i ((CursorCall.findColumn label).after s) v r := by
  intro start s hrow hi
  have hfresh : Settled start := .inl ⟨nofun, rfl, rfl, nofun⟩
  have hdescribed : Described columns settings start := ⟨rfl, rfl, hknown⟩
  exact (described_of_calls hdescribed hwild calls).foundAt hwild hnames hlabels
    (settled_of_calls hfresh calls) hrow hi

/-- A column is found under its name behind a hidden one, and read under both its
name and its label. -/
theorem name_of_labelled_column_found :
    let columns : List Column :=
      [{ name := "id", role := .hidden, schema := "test", table := "people" },
       { name := "name", label := some "first_name", schema := "test", table := "people" }]
    let stream : RecordStream :=
      { pending := [.ok ⟨none, .ofList [("id", .int64 1), ("name", .text "Ada")]⟩] }
    let start : RecordCursor := { home := ⟨"test", "people"⟩, columns, settings := {}, stream }
    let s := afterAll (start, { store := .memory {} }) [.metadata, .next]
    (∀ c ∈ columns, c.isWildcard = false) ∧ (columns.map (·.name)).Nodup ∧
      (columns.map Column.displayLabel).Nodup ∧ s.1.state.ensureRow = .ok () ∧
      (CursorCall.findColumn "name").answer s = .ok 0 ∧
      ∃ v r, s.1.current = some r ∧
        FoundAt columns {} "name" 0 ((CursorCall.findColumn "name").after s) v r := by
  intro columns stream start s
  have hwild : ∀ c ∈ columns, c.isWildcard = false := by decide
  have hnames : (columns.map (·.name)).Nodup := by decide
  have hlabels : (columns.map Column.displayLabel).Nodup := by decide
  exact ⟨hwild, hnames, hlabels, rfl, rfl,
    found_label_reads ⟨"test", "people"⟩ columns {} stream .nowhere none { store := .memory {} }
      [.metadata, .next] "name" 0 hwild hnames hlabels nofun rfl rfl⟩

/-- A label that is the name of one column shown and the label of the next finds
the first and reads the second. -/
theorem label_of_next_column_read :
    let columns : List Column :=
      [{ name := "b", label := some "x", schema := "test", table := "t" },
       { name := "a", label := some "b", schema := "test", table := "t" }]
    let stream : RecordStream :=
      { pending := [.ok ⟨none, .ofList [("a", .int64 1), ("b", .int64 2)]⟩] }
    let start : RecordCursor := { home := ⟨"test", "t"⟩, columns, settings := {}, stream }
    let s := afterAll (start, { store := .memory {} }) [.next]
    let found := (CursorCall.findColumn "b").after s
    (∀ c ∈ columns, c.isWildcard = false) ∧ (columns.map (·.name)).Nodup ∧
      (columns.map Column.displayLabel).Nodup ∧ s.1.state.ensureRow = .ok () ∧
      (CursorCall.findColumn "b").answer s = .ok 0 ∧
      (∃ m, CursorCall.metadata.answer found = .ok m ∧ m.columnLabel 0 = .ok "x") ∧
      (CursorCall.getObject "x").answer found = .ok (.int64 2) ∧
      (CursorCall.getObject "b").answer found = .ok (.int64 1) := by
  refine ⟨by decide, by decide, by decide, rfl, rfl, ⟨_, rfl, rfl⟩, rfl, rfl⟩

end RecordCursor
end KeyedRows
