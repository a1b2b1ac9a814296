/-
# Types that are told and values that are read

Metadata type a column by the fields of a sampled record (`fieldsOf`), and a getter
reads the column's field in the record of its row (`fieldOf`). Both put the key and
its digest in the place of stored fields where the settings show them
(`read_fieldsOf`). A getter also shows them under a column with the role of a key,
which sampling does not heed (`ShownByRole`). Apart from such columns, the type that
is told is the type of the value that is read on the sampled row
(`sampled_types_read`).

Key definitions: `ShownByRole`, `OnSampled`, `Announces`.
Key theorem: **`sampled_types_read`**.
-/
import KeyedRows.Proofs.Cursor.Labels

namespace KeyedRows

open CursorM CursorCall

/-- The role of a column shows the key or its digest, where the settings alone show
what is stored. -/
def ShownByRole (settings : Settings) (name : String) (role : ColumnRole) : Prop :=
  Shadowed settings name role ∧ ¬ Shadowed settings name .data

theorem Bins.read_insert (bins : Bins) (name k : String) (v : Value) :
    Bins.read (bins.insert k v) name = if name = k then v else bins.read name := by
  have hc : compare name k = .eq ↔ name = k := Std.LawfulEqOrd.compare_eq_iff_eq
  rw [Bins.read, OrderedMap.find?_insert, Bins.read]
  by_cases h : name = k <;> simp [hc, h]

namespace Discovery

/-- One record types a name by its value there. -/
theorem firstType_single (bins : Bins) (name : String) :
    firstType [bins] name = .ofValue (bins.read name) := by
  unfold firstType Bins.read
  cases hv : bins.find? name with
  | none => simp [hv]; rfl
  | some v =>
    cases hnull : v.isNull with
    | false => simp [hv, hnull]
    | true =>
      have hkind : v = .null := by
        cases v <;> first | rfl | cases hnull
      subst hkind
      simp [hv, hnull]
      rfl

variable {columns : List Column} {bins : Bins} {reserved : List String} {d : Column}

/-- What becomes of columns that are resolved against one record: a column stays as
it is, or is typed, or stands for a field that a wildcard observes. -/
theorem mem_resolve_single (h : d ∈ resolve columns (fun _ => [bins]) reserved) :
    (d ∈ columns ∧ d.needsSample = false) ∨
    d.type = .ofValue (bins.read d.name) ∧
      ((∃ c ∈ columns, c.isWildcard = false ∧ d = { c with type := d.type }) ∨
        (∃ w ∈ columns, w.isWildcard = true ∧ d.name ∉ reserved)) := by
  obtain ⟨c, hc, hd⟩ := List.mem_flatMap.mp h
  cases comesOutOf_of_mem hd with
  | declared hneeds => exact .inl ⟨hc, hneeds⟩
  | undeclared hw => exact .inr ⟨firstType_single bins c.name, .inl ⟨c, hc, hw, rfl⟩⟩
  | field hw _ hfresh =>
    exact .inr ⟨firstType_single bins _, .inr ⟨c, hc, hw,
      fun hr => hfresh (List.mem_append_right _ hr)⟩⟩

end Discovery

namespace RecordCursor

variable {settings : Settings} {name : String} {role : ColumnRole}

/-! ### Two ways to the fields of a record -/

/-- **Sampling a field gives what reading it as stored data does.** -/
theorem read_fieldsOf (hkeys : settings.keyColumn ≠ settings.digestColumn) (r : Record)
    (name : String) : (fieldsOf settings r).read name = fieldOf settings r name .data := by
  unfold fieldsOf fieldOf
  cases r.key with
  | none => rfl
  | some key =>
    have hrole : (ColumnRole.data == ColumnRole.primaryKey) = false := rfl
    simp only [hrole, Bool.or_false]
    by_cases hd : name = settings.digestColumn
    · have hk : name ≠ settings.keyColumn := fun hk => hkeys (hk.symm.trans hd)
      cases settings.special.key <;> cases settings.special.digest <;>
        simp [Bins.read_insert, hd, hkeys.symm]
    · cases settings.special.key <;> cases settings.special.digest <;>
        simp [Bins.read_insert, hd]

/-- The role of a column makes no difference unless it shows the key. -/
theorem fieldOf_role (hkeys : settings.keyColumn ≠ settings.digestColumn)
    (h : ¬ ShownByRole settings name role) (r : Record) :
    fieldOf settings r name role = fieldOf settings r name .data := by
  by_cases hdata : Shadowed settings name .data
  · unfold fieldOf
    cases r.key with
    | none => rfl
    | some key =>
      rcases hdata with ⟨rfl, hshown⟩ | ⟨rfl, hshown⟩
      · have hkey : settings.special.key = true := hshown.resolve_right nofun
        simp [hkey]
      · have hdigest : settings.special.digest = true := hshown.resolve_right nofun
        simp [hdigest, hkeys.symm]
  · have hrole : ¬ Shadowed settings name role := fun hrole => h ⟨hrole, hdata⟩
    rw [fieldOf_stored hrole, fieldOf_stored hdata]

/-! ### Labels of columns without labels -/

section

variable {columns : List Column}

/-- A column is read under its name. -/
theorem resolveLabel_own (hlabels : ∀ c ∈ columns, c.displayLabel = c.name)
    (hnames : (columns.map (·.name)).Nodup) {c : Column} (hc : c ∈ columns)
    (hw : c.isWildcard = false) : resolveLabel columns c.name = .ok (c.name, c.role) := by
  have hsame : columns.map Column.displayLabel = columns.map (·.name) :=
    List.map_congr_left hlabels
  have hfind := find?_of_nodup_map (hsame ▸ hnames) hc
  rw [hlabels c hc] at hfind
  simp [resolveLabel, hfind, hw]

/-- Beside a wildcard every name is read. -/
theorem resolveLabel_beside_wildcard (hlabels : ∀ c ∈ columns, c.displayLabel = c.name)
    {w : Column} (hw : w ∈ columns) (hwild : w.isWildcard = true) (name : String) :
    ∃ role, resolveLabel columns name = .ok (name, role) := by
  by_cases hname : name ∈ columns.map (·.name)
  · exact resolveLabel_named hlabels hname
  · have hnone : columns.find? (·.name == name) = none :=
      List.find?_eq_none.mpr fun c hc he => hname (List.mem_map.mpr ⟨c, hc, by simpa using he⟩)
    have hnone' : columns.find? (·.displayLabel == name) = none := by
      rw [← hnone]
      exact List.find?_congr fun c hc => by rw [hlabels c hc]
    have hany : columns.any Column.isWildcard = true := List.any_eq_true.mpr ⟨w, hw, hwild⟩
    exact ⟨.data, by simp [resolveLabel, hnone, hnone', hany]⟩

end

/-! ### The sampled row -/

/-- The row that metadata are sampled from, once a cursor was asked for them: the
current row, or else the row that the next move finds. -/
inductive OnSampled (s : RecordCursor × Client) : RecordCursor × Client → Prop where
  | current : s.1.current.isSome = true → OnSampled s (CursorCall.metadata.after s)
  | next : s.1.current = none →
      CursorCall.next.answer (CursorCall.metadata.after s) = .ok true →
      OnSampled s (CursorCall.next.after (CursorCall.metadata.after s))

/-- What metadata announce of the row with this record. -/
structure Announces (columns : List Column) (settings : Settings) (m : ResultMetadata)
    (s : RecordCursor × Client) (r : Record) : Prop where
  /-- Every column but a wildcard is told. -/
  told : ∀ c ∈ columns, c.isWildcard = false → ∃ type, { c with type } ∈ m.columns
  /-- One that declares no type is told with the type of the value that its getter
  reads, except that the key, where only the role of the column shows it, is told
  with the type of what is stored in its place. -/
  typed : ∀ c ∈ columns, c.isWildcard = false → c.hasDeclaredType = false →
    ∀ type, { c with type } ∈ m.columns →
      ∃ v, (CursorCall.getObject c.name).answer s = .ok v ∧
        (¬ ShownByRole settings c.name c.role → type = .ofValue v) ∧
        (ShownByRole settings c.name c.role → type = .ofValue (r.bins.read c.name))
  /-- So is every column that a wildcard stands for, without exception. -/
  expanded : ∀ d ∈ m.columns, (∀ c ∈ columns, c.isWildcard = false → d ≠ { c with type := d.type }) →
    ∃ v, (CursorCall.getObject d.name).answer s = .ok v ∧ d.type = .ofValue v

variable {c : RecordCursor} {cl : Client} {m : ResultMetadata}

/-- Metadata that are made from a sampled record. -/
theorem metadata_of_sample (hopen : c.state.closed = false) (hnone : c.metadata = none)
    (hneeds : c.columns.any Column.needsSample = true) {r : Record} {t : RecordCursor × Client}
    (hs : sample (c, cl) = .ok (some r) t) :
    ∃ m, CursorCall.metadata.run (c, cl) = .ok m ({ t.1 with metadata := some m }, t.2) ∧
      m.columns = Discovery.resolve c.columns (fun _ => [fieldsOf c.settings r])
        [c.settings.keyColumn, c.settings.digestColumn] := by
  refine ⟨_, ?_, columns_metadataOf c.home _⟩
  have hrun : CursorCall.metadata.run (c, cl) = getMetadata (c, cl) := rfl
  rw [hrun]
  simp only [getMetadata, computeMetadata, bind_apply, cursor_apply, CursorState.ensureOpen, hopen,
    hnone, hneeds, hs, Bool.not_true, Bool.false_eq_true, if_false, ofExcept_ok]
  rfl

/-- **Metadata that a record of the stream is sampled for** are resolved against the
record of the row that they announce. -/
theorem sampled_row (h : WellPlaced c) (hnone : c.metadata = none)
    (hneeds : c.columns.any Column.needsSample = true)
    (hrow : c.current.isSome = true ∨ c.ahead ≠ [])
    (hm : CursorCall.metadata.answer (c, cl) = .ok m) :
    ∃ t r, OnSampled (c, cl) t ∧ ShowsRow c.columns c.settings t r ∧
      m.columns = Discovery.resolve c.columns (fun _ => [fieldsOf c.settings r])
        [c.settings.keyColumn, c.settings.digestColumn] := by
  have hshows {d : RecordCursor} {cl : Client} {r : Record} (hd : WellPlaced d)
      (hr : d.current = some r) (hcolumns : d.columns = c.columns)
      (hsettings : d.settings = c.settings) : ShowsRow c.columns c.settings (d, cl) r := by
    refine ⟨by rw [hd.ensureRow, hr]; rfl, hr, ?_⟩
    rw [← hcolumns, ← hsettings]
    exact reads_of_current (s := (d, cl)) hd hr
  rcases sample_cases h cl with ⟨r, hr, hs⟩ |
      ⟨hoff, d, hl, -, ⟨r, hhead, hs⟩ | ⟨hnil, -⟩⟩ | ⟨-, e, d, -, hs⟩
  · obtain ⟨m', hmade, hresolved⟩ := metadata_of_sample h.isOpen hnone hneeds hs
    cases (answer_ok hmade).symm.trans hm
    have hafter := after_ok hmade
    refine ⟨_, r, .current (by rw [hr]; rfl), ?_, hresolved⟩
    rw [hafter]
    exact hshows ⟨h.exhausted, h.isOpen, h.onRow, h.done⟩ hr rfl rfl
  · obtain ⟨m', hmade, hresolved⟩ := metadata_of_sample h.isOpen hnone hneeds hs
    cases (answer_ok hmade).symm.trans hm
    have hafter := after_ok hmade
    have hplaced : WellPlaced { d with metadata := some m } :=
      ⟨hl.placed.exhausted, hl.placed.isOpen, hl.placed.onRow, hl.placed.done⟩
    have hahead : { d with metadata := some m }.ahead = c.ahead := hl.ahead
    rcases next_cases hplaced cl with ⟨r', u, hn, hu, hr, hcolumns, hsettings, hcurrent, -⟩ |
        ⟨u, -, -, hnil, -⟩ | ⟨e, u, -, ht, -⟩
    · rw [hahead.symm.trans hr] at hhead
      cases hhead
      have hnext : CursorCall.next.run ({ d with metadata := some m }, cl) = .ok true (u, cl) := hn
      refine ⟨_, r, .next hoff (by rw [hafter]; exact answer_ok hnext), ?_, hresolved⟩
      rw [hafter, after_ok hnext]
      exact hshows hu hcurrent (hcolumns.trans hl.place.columns) (hsettings.trans hl.place.settings)
    · rw [hahead.symm.trans hnil] at hhead
      cases hhead
    · rw [hahead.symm.trans ht.ahead] at hhead
      cases hhead
  · rw [hnil, hoff] at hrow
    rcases hrow with hrow | hrow
    · cases hrow
    · exact absurd rfl hrow
  · have hrun : CursorCall.metadata.run (c, cl) = .error e (d, cl) := by
      have hrun : CursorCall.metadata.run (c, cl) = getMetadata (c, cl) := rfl
      rw [hrun]
      simp only [getMetadata, computeMetadata, bind_apply, cursor_apply, CursorState.ensureOpen,
        h.isOpen, hnone, hneeds, hs, Bool.not_true, Bool.false_eq_true, if_false, ofExcept_ok]
    rw [answer_error hrun] at hm
    cases hm

/-- Metadata that are resolved against the record of a row announce it. -/
theorem announces_of_resolved {columns : List Column} {s : RecordCursor × Client} {r : Record}
    (hnames : (columns.map (·.name)).Nodup) (hlabels : ∀ c ∈ columns, c.label = none)
    (hkeys : settings.keyColumn ≠ settings.digestColumn) (hrow : ShowsRow columns settings s r)
    (hm : m.columns = Discovery.resolve columns (fun _ => [fieldsOf settings r])
      [settings.keyColumn, settings.digestColumn]) : Announces columns settings m s r := by
  have htitled : ∀ c ∈ columns, c.displayLabel = c.name := fun c hc => by
    rw [Column.displayLabel, hlabels c hc]
    rfl
  have hreads {name : String} {role : ColumnRole}
      (hlabel : resolveLabel columns name = .ok (name, role)) :
      (CursorCall.getObject name).answer s = .ok (fieldOf settings r name role) := by
    rw [hrow.reads.getObject, reading_of_resolveLabel hlabel]
  constructor
  case told =>
    intro c hc hw
    rw [hm]
    exact Discovery.resolve_keeps hc hw
  case typed =>
    intro c hc hw hdeclared type htype
    rw [hm] at htype
    have htold : type = .ofValue (fieldOf settings r c.name .data) := by
      rcases Discovery.mem_resolve_single htype with ⟨hmem, hneeds⟩ | ⟨htype, -⟩
      · -- the only column of this name declares no type, so it was not left as it is
        have hsame := List.inj_on_of_nodup_map hnames hmem hc rfl
        rw [hsame, Column.needsSample, hw, hdeclared] at hneeds
        cases hneeds
      · rw [← read_fieldsOf hkeys]
        exact htype
    refine ⟨_, hreads (resolveLabel_own htitled hnames hc hw), fun hrole => ?_, fun hrole => ?_⟩
    · rw [htold, fieldOf_role hkeys hrole]
    · rw [htold, fieldOf_stored hrole.2]
  case expanded =>
    intro d hd hnew
    rw [hm] at hd
    rcases Discovery.mem_resolve_single hd with ⟨hmem, hneeds⟩ |
        ⟨htype, ⟨c, hc, hw, hd⟩ | ⟨w, hmem, hw, hfree⟩⟩
    · have hw : d.isWildcard = false := by
        simp only [Column.needsSample, Bool.or_eq_false_iff] at hneeds
        exact hneeds.1
      exact absurd rfl (hnew d hmem hw)
    · exact absurd hd (hnew c hc hw)
    · obtain ⟨role, hlabel⟩ := resolveLabel_beside_wildcard htitled hmem hw d.name
      -- the name is neither of the two that a key may be shown under
      have hstored (role : ColumnRole) : ¬ Shadowed settings d.name role := by
        rintro (⟨hname, -⟩ | ⟨hname, -⟩) <;> simp [hname] at hfree
      refine ⟨_, hreads hlabel, ?_⟩
      rw [htype, read_fieldsOf hkeys, fieldOf_stored (hstored .data), fieldOf_stored (hstored role)]

/-- No calls change the columns of a cursor or its settings. -/
theorem columns_of_calls (s : RecordCursor × Client) (calls : List CursorCall) :
    (afterAll s calls).1.columns = s.1.columns ∧ (afterAll s calls).1.settings = s.1.settings := by
  refine (exchanges_keep
    (I := fun t => t.1.columns = s.1.columns ∧ t.1.settings = s.1.settings)
    (fun t k ht (_ : True) => ?_) calls s ⟨rfl, rfl⟩ fun _ _ => trivial).1
  obtain ⟨hcolumns, hsettings⟩ := columns_of_call k t
  exact ⟨hcolumns.trans ht.1, hsettings.trans ht.2⟩

/-- **Metadata that were sampled from a row announce what its getters read**, for
columns without labels and of different names, whatever was called before: the type
of each column that declares none and of each field that a wildcard stands for is
the type of the value that is read there. Only a key that the role of its column
shows, against the settings, is told with the type of what is stored in its
place. -/
theorem sampled_types_read (home : SetAddress) (columns : List Column) (settings : Settings)
    (stream : RecordStream) (fallback : Fallback) (cl : Client) (calls : List CursorCall)
    (hnames : (columns.map (·.name)).Nodup) (hlabels : ∀ c ∈ columns, c.label = none)
    (hkeys : settings.keyColumn ≠ settings.digestColumn) :
    let start : RecordCursor := { home, columns, settings, stream, fallback }
    let s := afterAll (start, cl) calls
    s.1.metadata = none → columns.any Column.needsSample = true →
      (s.1.current.isSome = true ∨ s.1.ahead ≠ []) →
      ∀ m, CursorCall.metadata.answer s = .ok m →
        ∃ t r, OnSampled s t ∧ t.1.current = some r ∧ Announces columns settings m t r := by
  intro start s hnone hneeds hrow m hm
  have hfresh : Settled start := .inl ⟨nofun, rfl, rfl, nofun⟩
  obtain ⟨hcolumns, hsettings⟩ := columns_of_calls (start, cl) calls
  have hcolumns : s.1.columns = columns := hcolumns
  have hsettings : s.1.settings = settings := hsettings
  have hsettled : Settled s.1 := settled_of_calls hfresh calls
  have hplaced : WellPlaced s.1 := by
    refine hsettled.resolve_right fun hclosed => ?_
    have hrun : CursorCall.metadata.run s = .error (.closed "cursor") s :=
      getMetadata_closed hclosed s.2
    rw [answer_error hrun] at hm
    cases hm
  obtain ⟨t, r, ht, hshows, hresolved⟩ :=
    sampled_row hplaced hnone (by rw [hcolumns]; exact hneeds) hrow hm
  rw [hcolumns, hsettings] at hshows hresolved
  exact ⟨t, r, ht, hshows.current, announces_of_resolved hnames hlabels hkeys hshows hresolved⟩

/-- A key, a field without a type and a wildcard are sampled ahead of the first
row. -/
theorem key_and_fields_told :
    let columns : List Column :=
      [{ name := "PK", role := .primaryKey, schema := "test", table := "people" },
       { name := "age", schema := "test", table := "people" },
       { name := "*", schema := "test", table := "people" }]
    let stream : RecordStream :=
      { pending := [.ok ⟨some ⟨⟨"test", "people"⟩, .int 1⟩,
          .ofList [("age", .int16 36), ("name", .text "Ada")]⟩] }
    let start : RecordCursor := { home := ⟨"test", "people"⟩, columns, settings := {}, stream }
    let s : RecordCursor × Client := (start, { store := .memory {} })
    (columns.map (·.name)).Nodup ∧ (∀ c ∈ columns, c.label = none) ∧
      ∃ m, CursorCall.metadata.answer s = .ok m ∧
        ∃ t r, OnSampled s t ∧ t.1.current = some r ∧ Announces columns {} m t r := by
  intro columns stream start s
  have hnames : (columns.map (·.name)).Nodup := by decide
  have hlabels : ∀ c ∈ columns, c.label = none := by decide
  exact ⟨hnames, hlabels, _, rfl, sampled_types_read ⟨"test", "people"⟩ columns {} stream .nowhere
    { store := .memory {} } [] hnames hlabels (by decide) rfl rfl (.inr nofun) _ rfl⟩

/-- A key that only the role of its column shows is told without a type, and read as
an integer. -/
theorem key_shown_by_role_told_untyped :
    let column : Column := { name := "PK", role := .primaryKey, schema := "test", table := "people" }
    let settings : Settings := { special := ⟨false, false⟩ }
    let stream : RecordStream :=
      { pending := [.ok ⟨some ⟨⟨"test", "people"⟩, .int 1⟩, .ofList []⟩] }
    let start : RecordCursor :=
      { home := ⟨"test", "people"⟩, columns := [column], settings, stream }
    let s : RecordCursor × Client := (start, { store := .memory {} })
    let t := CursorCall.next.after (CursorCall.metadata.after s)
    settings.keyColumn ≠ settings.digestColumn ∧ column.label = none ∧
      column.hasDeclaredType = false ∧ OnSampled s t ∧
      (∃ m, CursorCall.metadata.answer s = .ok m ∧ m.columns = [{ column with type := .unknown }]) ∧
      (CursorCall.getObject "PK").answer t = .ok (.int64 1) ∧
      SqlType.ofValue (.int64 1) = .bigInt := by
  exact ⟨by decide, rfl, rfl, .next rfl rfl, ⟨_, rfl, rfl⟩, rfl, rfl⟩

end RecordCursor
end KeyedRows
