/-
# Given rows and records of the same fields

A cursor over given rows and one over records without keys that hold these rows go
in step over columns with declared types (`keepsStep_beside`), and only getters can
tell them apart. Under a label both read the field of that name or of the column
that the label means: the first cursor looks for the label among the visible columns
and reads the field that is called like it, the other reads the field of the column,
hidden or not (`AlikeUnder`).

Key definitions: `Record.keyless`, `meant?`, `AlikeUnder`, `Beside`.
Key theorem: **`given_rows_read_as_records`**.
-/
import KeyedRows.Proofs.Cursor.Alike
import KeyedRows.Proofs.Cursor.Labels
import KeyedRows.Proofs.OrderedMap

namespace KeyedRows

open CursorM CursorCall

/-- A record without a key. -/
def Record.keyless (bins : Bins) : Record := ⟨none, bins⟩

/-- The column that a label means: the first with this label, or else with this name,
hidden or not. -/
def meant? (columns : List Column) (label : String) : Option Column :=
  (columns.find? (·.displayLabel == label)).or (columns.find? (·.name == label))

/-- Both cursors read the same in the row under the label: if it means a column, then a
visible column tells it, and the field of its own name has the value of the field that is
named as the column. -/
def AlikeUnder (columns : List Column) (row : Bins) (label : String) : Prop :=
  ∀ v, meant? columns label = some v →
    (∃ w ∈ Discovery.shown columns, w.displayLabel = label ∨ w.name = label) ∧
      row.read label = row.read v.name

variable {columns : List Column} {rows : List Bins} {row : Bins} {label : String}

theorem meant?_eq_none_iff : meant? columns label = none ↔
    ∀ c ∈ columns, ¬ (c.displayLabel = label ∨ c.name = label) := by
  simp only [meant?, Option.or_eq_none_iff, List.find?_eq_none, beq_iff_eq, not_or]
  exact ⟨fun h c hc => ⟨h.1 c hc, h.2 c hc⟩, fun h => ⟨fun c hc => (h c hc).1, fun c hc => (h c hc).2⟩⟩

theorem meant?_eq_some {v : Column} (h : meant? columns label = some v) :
    v ∈ columns ∧ (v.displayLabel = label ∨ v.name = label) := by
  rcases Option.or_eq_some_iff.mp h with hlabel | ⟨-, hname⟩
  · exact ⟨List.mem_of_find?_eq_some hlabel, .inl (by simpa using List.find?_some hlabel)⟩
  · exact ⟨List.mem_of_find?_eq_some hname, .inr (by simpa using List.find?_some hname)⟩

/-- A column that needs no sample is no wildcard. -/
theorem not_isWildcard_of_declared (h : ∀ c ∈ columns, c.needsSample = false) :
    ∀ c ∈ columns, c.isWildcard = false := by
  intro c hc
  have hno := h c hc
  rw [Column.needsSample, Bool.or_eq_false_iff] at hno
  exact hno.1

/-- What a label means is told by the label itself, where no two columns share one. -/
theorem meant?_displayLabel (hlabels : (columns.map Column.displayLabel).Nodup) {v : Column}
    (hv : v ∈ columns) : meant? columns v.displayLabel = some v := by
  rw [meant?, find?_of_nodup_map hlabels hv]
  rfl

/-! ### What the two cursors read -/

namespace StaticCursor

/-- What getters read in a row under a label of these columns. -/
def reading (columns : List Column) (row : Bins) (label : String) : Except Error Value := do
  let _ ← (ResultMetadata.ofColumns columns).findColumn label
  return row.read label

theorem read_of_current {c : StaticCursor} (hmetadata : c.metadata = .ofColumns columns)
    (hrow : c.current = some row) (label : String) : c.read label = reading columns row label := by
  simp only [read, reading, hmetadata, hrow]
  rfl

/-- A label that no visible column tells is not found. -/
theorem reading_eq (columns : List Column) (row : Bins) (label : String) :
    ((∃ w ∈ Discovery.shown columns, w.displayLabel = label ∨ w.name = label) ∧
      reading columns row label = .ok (row.read label)) ∨
    ((¬ ∃ w ∈ Discovery.shown columns, w.displayLabel = label ∨ w.name = label) ∧
      reading columns row label = .error (.columnNotFound label)) := by
  simp only [reading, ResultMetadata.findColumn]
  have hshown : (ResultMetadata.ofColumns columns).visible = Discovery.shown columns := rfl
  cases hfind : (ResultMetadata.ofColumns columns).visible.findIdx?
      fun c => c.displayLabel == label || c.name == label with
  | none =>
    refine .inr ⟨?_, rfl⟩
    rw [List.findIdx?_eq_none_iff, hshown] at hfind
    rintro ⟨w, hw, hmatch⟩
    have hno := hfind w hw
    simp only [Bool.or_eq_false_iff, beq_eq_false_iff_ne, ne_eq] at hno
    exact hmatch.elim hno.1 hno.2
  | some i =>
    refine .inl ⟨?_, rfl⟩
    obtain ⟨hlt, hmatch, -⟩ := List.findIdx?_eq_some_iff_getElem.mp hfind
    exact ⟨_, List.getElem_mem hlt, by simpa using hmatch⟩

end StaticCursor

/-- A record without a key is read in the field of the column that the label means. -/
theorem RecordCursor.reading_keyless (hwild : ∀ c ∈ columns, c.isWildcard = false)
    (settings : Settings) (row : Bins) (label : String) :
    reading columns settings (.keyless row) label =
      match meant? columns label with
      | some v => .ok (row.read v.name)
      | none => .error (.columnNotFound label) := by
  have hany : columns.any Column.isWildcard = false := by
    rw [List.any_eq_false]
    intro c hc
    rw [hwild c hc]
    exact Bool.false_ne_true
  have hnamed : (columns.find? (·.displayLabel == label)).or (columns.find? (·.name == label)) =
      meant? columns label := rfl
  rw [reading, resolveLabel, hnamed]
  cases hmeant : meant? columns label with
  | none => simp [hany, bind, Except.bind]
  | some v =>
    simp [hwild v (meant?_eq_some hmeant).1, bind, Except.bind, fieldOf, Record.keyless, pure,
      Except.pure]

/-- **When the two cursors read the same.** -/
theorem reading_eq_iff (hwild : ∀ c ∈ columns, c.isWildcard = false) (settings : Settings) :
    StaticCursor.reading columns row label =
        RecordCursor.reading columns settings (.keyless row) label ↔
      AlikeUnder columns row label := by
  rw [RecordCursor.reading_keyless hwild, AlikeUnder]
  cases hmeant : meant? columns label with
  | none =>
    rcases StaticCursor.reading_eq columns row label with ⟨⟨w, hw, hmatch⟩, -⟩ | ⟨-, hread⟩
    · have hmem : w ∈ columns := (List.mem_filter.mp hw).1
      exact absurd hmatch (meant?_eq_none_iff.mp hmeant w hmem)
    · simp [hread]
  | some v =>
    rcases StaticCursor.reading_eq columns row label with ⟨htold, hread⟩ | ⟨huntold, hread⟩
    · simp [hread, htold]
    · simp [hread, huntold]

/-! ### In step -/

/-- The rows ahead of the first cursor are those ahead of the other one, and both are on
the same row or on none. -/
structure SameRows (rows : List Bins) (c : StaticCursor) (d : RecordCursor) : Prop where
  placed : d.WellPlaced
  current : d.current = c.current.map Record.keyless
  ahead : d.ahead = (c.rows.map Record.keyless).map .ok
  given : ∀ row ∈ c.current.toList ++ c.rows, row ∈ rows

/-- A cursor over some of these rows and one over records that hold them. -/
structure Beside (columns : List Column) (rows : List Bins) (c : StaticCursor)
    (d : RecordCursor) : Prop where
  state : c.state = d.state
  told : c.metadata = .ofColumns columns
  sameColumns : d.columns = columns
  kept : ∀ m, d.metadata = some m → m = .ofColumns columns
  place : d.state.closed = false → SameRows rows c d

/-- A move takes the first given row, and the cursor is after its rows when none is left. -/
theorem SameRows.next_cases {c : StaticCursor} {d : RecordCursor} (h : SameRows rows c d)
    (hstate : c.state = d.state) (hopen : c.state.closed = false) (cl : Client) :
    (∃ row rest, c.rows = row :: rest ∧ StaticCursor.next (c, cl) =
      .ok true ({ c with rows := rest, current := some row, state := c.state.advance }, cl)) ∨
    (c.rows = [] ∧ StaticCursor.next (c, cl) =
      .ok false ({ c with current := none, state := c.state.finish }, cl)) := by
  rcases StaticCursor.next_cases hopen cl with ⟨hdone, hn⟩ | ⟨-, row, rest, hrest, hn⟩ |
      ⟨-, hnone, hn⟩
  · -- after the last row the cursor stays as it is
    have hahead := h.placed.done (hstate ▸ hdone)
    rw [h.ahead, List.map_eq_nil_iff, List.map_eq_nil_iff] at hahead
    have hoff : c.current = none := by
      have hrow := h.placed.onRow
      rw [← hstate, h.current, Option.isSome_map, CursorState.onRow, hdone] at hrow
      simpa using hrow.symm
    refine .inr ⟨hahead, ?_⟩
    rw [hn, CursorState.finish_of_done hdone, ← hoff]
  · exact .inl ⟨row, rest, hrest, hn⟩
  · exact .inr ⟨hnone, hn⟩

namespace Beside

open RecordCursor

variable {c c' : StaticCursor} {d : RecordCursor} {cl : Client} {t : RecordCursor × Client}

theorem closed (h : Beside columns rows c d) (hd : d.state.closed = true) :
    c.state.closed = true := by
  rw [h.state]
  exact hd

theorem isOpen (h : Beside columns rows c d) (hd : d.state.closed = false) :
    c.state.closed = false := by
  rw [h.state]
  exact hd

/-- What moves and looks ahead keeps what is told of the columns. -/
theorem of_still (h : Beside columns rows c d) (hstill : Still (d, cl) t)
    (htold : c'.metadata = c.metadata) (hstate : c'.state = t.1.state)
    (hrows : SameRows rows c' t.1) : Beside columns rows c' t.1 where
  state := hstate
  told := htold.trans h.told
  sameColumns := hstill.columns.trans h.sameColumns
  kept m hm := h.kept m (hstill.sameMetadata ▸ hm)
  place _ := hrows

theorem withState (h : Beside columns rows c d) {st : CursorState} (hst : c.state.Stays st) :
    Beside columns rows { c with state := st } { d with state := st } where
  state := rfl
  told := h.told
  sameColumns := h.sameColumns
  kept := h.kept
  place hopen := by
    have hstays : d.state.Stays st := h.state ▸ hst
    have hrows := h.place (hstays.closed.symm.trans hopen)
    have hlooked : Looked d { d with state := st } :=
      hrows.placed.looked ⟨rfl, rfl, rfl, hstays.position, hstays.done, hstays.closed⟩
        hrows.placed.exhausted rfl
    exact ⟨hlooked.placed, hrows.current, hrows.ahead, hrows.given⟩

theorem next : InStep (Beside columns rows) StaticCursor.next RecordCursor.next := by
  rintro ⟨c, cl⟩ ⟨d, cl'⟩ (h : Beside columns rows c d)
  cases hclosed : d.state.closed with
  | true =>
    rw [StaticCursor.next_closed (h.closed hclosed), next_closed hclosed]
    exact ⟨rfl, h⟩
  | false =>
    have hrows := h.place hclosed
    have hstill : Still (d, cl') (CursorCall.next.after (d, cl')) :=
      still_of_call (by simp) rfl (d, cl')
    have hrun : CursorCall.next.run (d, cl') = RecordCursor.next (d, cl') := rfl
    rcases next_cases hrows.placed cl' with ⟨r, d', hn, hplaced, hahead, -, -, hcurrent, hst⟩ |
        ⟨d', hn, hplaced, hnil, hnil', -, -, hcurrent, hst⟩ | ⟨e, d', -, htook, -⟩
    · rw [after_ok (hrun.trans hn)] at hstill
      rw [hrows.ahead] at hahead
      rcases hrows.next_cases h.state (h.isOpen hclosed) cl with ⟨row, rest, hrest, hn'⟩ | ⟨hnone, -⟩
      · -- both cursors come to the row that lies ahead of them
        rw [hrest, List.map_cons, List.map_cons] at hahead
        obtain ⟨hr, hrest'⟩ := List.cons.inj hahead
        cases hr
        rw [hn, hn']
        refine ⟨rfl, h.of_still hstill rfl (h.state ▸ hst.symm)
          ⟨hplaced, hcurrent, hrest'.symm, fun x hx => hrows.given x ?_⟩⟩
        rw [hrest]
        exact List.mem_append_right _ hx
      · rw [hnone] at hahead
        cases hahead
    · rw [after_ok (hrun.trans hn)] at hstill
      rw [hrows.ahead] at hnil
      rcases hrows.next_cases h.state (h.isOpen hclosed) cl with ⟨row, rest, hrest, -⟩ | ⟨hnone, hn'⟩
      · rw [hrest] at hnil
        cases hnil
      · rw [hn, hn']
        refine ⟨rfl, h.of_still hstill rfl (h.state ▸ hst.symm)
          ⟨hplaced, hcurrent, ?_, fun x hx => hrows.given x (List.mem_append_right _ hx)⟩⟩
        rw [hnil', hnone]
        rfl
    · exact absurd htook (not_took_of_ahead hrows.ahead)

theorem close : InStep (Beside columns rows) StaticCursor.close RecordCursor.close := by
  rintro ⟨c, cl⟩ ⟨d, cl'⟩ (h : Beside columns rows c d)
  unfold StaticCursor.close RecordCursor.close
  rw [change_apply]
  cases hclosed : d.state.closed with
  | true =>
    simp only [hclosed, h.closed hclosed, if_true]
    exact ⟨rfl, h⟩
  | false =>
    simp only [hclosed, h.isOpen hclosed, Bool.false_eq_true, if_false]
    refine ⟨rfl, congrArg CursorState.close h.state, h.told, h.sameColumns, h.kept, ?_⟩
    exact fun hopen => absurd hopen (by simp [CursorState.close])

/-- Columns with declared types need no sample. -/
theorem computeMetadata_declared (hdeclared : ∀ c ∈ columns, c.needsSample = false)
    (h : d.columns = columns) (cl : Client) :
    computeMetadata (d, cl) = .ok (.ofColumns columns) (d, cl) := by
  have hany : d.columns.any Column.needsSample = false := by
    rw [h, List.any_eq_false]
    intro c hc
    rw [hdeclared c hc]
    exact Bool.false_ne_true
  unfold computeMetadata
  simp only [bind_apply, cursor_apply, hany, Bool.not_false, if_true, pure_apply]
  rw [h]

theorem metadata (hdeclared : ∀ c ∈ columns, c.needsSample = false) :
    InStep (Beside columns rows) StaticCursor.getMetadata RecordCursor.getMetadata := by
  rintro ⟨c, cl⟩ ⟨d, cl'⟩ (h : Beside columns rows c d)
  cases hclosed : d.state.closed with
  | true =>
    rw [StaticCursor.getMetadata_closed (h.closed hclosed), getMetadata_closed hclosed]
    exact ⟨rfl, h⟩
  | false =>
    have hgiven : StaticCursor.getMetadata (c, cl) = .ok (.ofColumns columns) (c, cl) := by
      simp only [StaticCursor.getMetadata, bind_apply, cursor_apply, CursorState.ensureOpen,
        h.isOpen hclosed, Bool.false_eq_true, if_false, ofExcept_ok, pure_apply, h.told]
    have hmade := computeMetadata_declared hdeclared h.sameColumns cl'
    rw [hgiven]
    rcases metadata_cases hclosed cl' with ⟨m, hkept, hm⟩ | ⟨m, t, -, hc, hm⟩ | ⟨e, t, -, hc, -⟩
    · rw [hm, h.kept m hkept]
      exact ⟨rfl, h⟩
    · cases hmade.symm.trans hc
      rw [hm]
      refine ⟨rfl, h.state, h.told, h.sameColumns, fun m hm => (Option.some.inj hm).symm, fun hopen => ?_⟩
      have hrows := h.place hopen
      have hlooked : Looked d { d with metadata := some (.ofColumns columns) } :=
        hrows.placed.looked ⟨rfl, rfl, rfl, rfl, rfl, rfl⟩ hrows.placed.exhausted rfl
      exact ⟨hlooked.placed, hrows.current, hrows.ahead, hrows.given⟩
    · cases hmade.symm.trans hc

theorem isLast : InStep (Beside columns rows) StaticCursor.isLast RecordCursor.isLast := by
  rintro ⟨c, cl⟩ ⟨d, cl'⟩ (h : Beside columns rows c d)
  cases hclosed : d.state.closed with
  | true =>
    have hgiven : StaticCursor.isLast (c, cl) = .error (.closed "cursor") (c, cl) := by
      simp only [StaticCursor.isLast, bind_apply, cursor_apply, CursorState.ensureOpen,
        h.closed hclosed, if_true, ofExcept_error]
    have hrecord : RecordCursor.isLast (d, cl') = .error (.closed "cursor") (d, cl') := by
      simp only [RecordCursor.isLast, bind_apply, cursor_apply, CursorState.ensureOpen, hclosed,
        if_true, ofExcept_error]
    rw [hgiven, hrecord]
    exact ⟨rfl, h⟩
  | false =>
    have hrows := h.place hclosed
    have hgiven : StaticCursor.isLast (c, cl) =
        .ok (c.current.isSome && c.rows.isEmpty) (c, cl) := by
      simp only [StaticCursor.isLast, bind_apply, cursor_apply, CursorState.ensureOpen,
        h.isOpen hclosed, Bool.false_eq_true, if_false, ofExcept_ok, pure_apply]
    have hstate := leads_isLast sameState_peek (d, cl')
    have hrun : CursorCall.isLast.run (d, cl') = RecordCursor.isLast (d, cl') := rfl
    have hstill : Still (d, cl') (CursorCall.isLast.after (d, cl')) :=
      still_of_call (by simp) rfl (d, cl')
    rw [hgiven]
    rcases isLast_cases hrows.placed cl' with ⟨b, d', hl, hlooked, hb⟩ | ⟨e, d', -, htook⟩
    · rw [leaves_ok hl] at hstate
      rw [after_ok (hrun.trans hl)] at hstill
      have hsame : (c.current.isSome && c.rows.isEmpty) = b := by
        rw [Bool.eq_iff_iff, hb, hrows.placed.onRow, hrows.current, hrows.ahead]
        simp
      rw [hl]
      exact ⟨hsame, h.of_still hstill rfl (h.state.trans hstate.symm)
        ⟨hlooked.placed, hlooked.place.current.trans hrows.current,
          hlooked.ahead.trans hrows.ahead, hrows.given⟩⟩
    · exact absurd htook (not_took_of_ahead hrows.ahead)

end Beside

/-- **The two cursors go in step.** -/
theorem keepsStep_beside (hdeclared : ∀ c ∈ columns, c.needsSample = false) :
    KeepsStep (Beside columns rows) where
  state h := h.state
  withState h _ hst := h.withState hst
  next := Beside.next
  close := Beside.close
  metadata := Beside.metadata hdeclared
  isLast := Beside.isLast

namespace Beside

variable {c : StaticCursor} {d : RecordCursor}

/-- On a row both cursors stand on the same one, and each reads it in its own way. -/
theorem readValue_run (h : Beside columns rows c d) (hrow : d.state.ensureRow = .ok ())
    (cl cl' : Client) : ∃ row ∈ rows, c.current = some row ∧
      (∀ label, (RowCursor.readValue label : CursorM StaticCursor Value) (c, cl) =
        (ofExcept (StaticCursor.reading columns row label) : CursorM StaticCursor Value) (c, cl)) ∧
      ∀ label, (RowCursor.readValue label : CursorM RecordCursor Value) (d, cl') =
        (ofExcept (RecordCursor.reading columns d.settings (.keyless row) label) :
          CursorM RecordCursor Value) (d, cl') := by
  have hopen : d.state.closed = false := (CursorState.ensureRow_eq_ok.mp hrow).1
  have hrows := h.place hopen
  rw [hrows.placed.ensureRow, hrows.current, Option.isSome_map] at hrow
  split_ifs at hrow with hsome
  obtain ⟨row, hcurrent⟩ := Option.isSome_iff_exists.mp hsome
  have hrecord : d.current = some (.keyless row) := by
    rw [hrows.current, hcurrent]
    rfl
  refine ⟨row, hrows.given row (by simp [hcurrent]), hcurrent, fun label => ?_, fun label => ?_⟩
  · rw [← StaticCursor.read_of_current h.told hcurrent label]
    rfl
  · rw [← h.sameColumns, ← RecordCursor.read_of_current hrecord label]
    rfl

/-- Getters go in step under a label that reads alike in all rows. -/
theorem getObject (hwild : ∀ c ∈ columns, c.isWildcard = false)
    (halike : ∀ row ∈ rows, AlikeUnder columns row label) :
    InStep (Beside columns rows) (RowCursor.getObject label) (RowCursor.getObject label) := by
  rintro ⟨c, cl⟩ ⟨d, cl'⟩ (h : Beside columns rows c d)
  have hstate : RowCursor.state c = RowCursor.state d := h.state
  rw [RowCursor.getObject_apply, RowCursor.getObject_apply, hstate]
  cases hrow : (RowCursor.state d).ensureRow with
  | error e => exact ⟨rfl, h⟩
  | ok u =>
    obtain ⟨row, hmem, -, hgiven, hrecord⟩ := h.readValue_run hrow cl cl'
    have hsame := (reading_eq_iff hwild d.settings).mpr (halike row hmem)
    rw [hgiven, hrecord, hsame]
    cases RecordCursor.reading columns d.settings (.keyless row) label with
    | error e => exact ⟨rfl, h⟩
    | ok v =>
      refine ⟨rfl, ?_⟩
      simp only [hstate]
      exact h.withState (hstate ▸ ⟨rfl, rfl, rfl⟩)

/-- On a row the getters answer alike only under a label that reads alike in it. -/
theorem alikeUnder_of_answer (hwild : ∀ c ∈ columns, c.isWildcard = false)
    (h : Beside columns rows c d) (hrow : d.state.ensureRow = .ok ()) (hcurrent : c.current = some row)
    {cl cl' : Client}
    (hsame : (CursorCall.getObject label).answer (c, cl) = (CursorCall.getObject label).answer (d, cl')) :
    AlikeUnder columns row label := by
  obtain ⟨row', -, hcurrent', hgiven, hrecord⟩ := h.readValue_run hrow cl cl'
  have hrow' : (RowCursor.state c).ensureRow = .ok () := by
    rw [← hrow, ← h.state]
    rfl
  have hgivenAnswer : (CursorCall.readValue label).answer (c, cl) =
      StaticCursor.reading columns row' label := by
    rw [CursorCall.answer, CursorCall.run, hgiven]
    cases StaticCursor.reading columns row' label <;> rfl
  have hrecordAnswer : (CursorCall.readValue label).answer (d, cl') =
      RecordCursor.reading columns d.settings (.keyless row') label := by
    rw [CursorCall.answer, CursorCall.run, hrecord]
    cases RecordCursor.reading columns d.settings (.keyless row') label <;> rfl
  rw [RowCursor.getObject_answer, RowCursor.getObject_answer, hrow', hgivenAnswer,
    show (RowCursor.state d).ensureRow = .ok () from hrow, hrecordAnswer] at hsame
  cases hcurrent.symm.trans hcurrent'
  exact (reading_eq_iff hwild d.settings).mp hsame

end Beside

/-! ### From the start -/

/-- A new cursor over records without keys that hold these rows. -/
def RecordCursor.ofRows (home : SetAddress) (columns : List Column) (settings : Settings)
    (fallback : Fallback) (rows : List Bins) : RecordCursor :=
  { home, columns, settings, stream := .ofRecords (rows.map .keyless), fallback }

theorem beside_of_new (home : SetAddress) (columns : List Column) (settings : Settings)
    (fallback : Fallback) (rows : List Bins) :
    Beside columns rows (.ofRows (.ofColumns columns) rows)
      (.ofRows home columns settings fallback rows) where
  state := rfl
  told := rfl
  sameColumns := rfl
  kept := nofun
  place _ :=
    { placed := ⟨nofun, rfl, rfl, nofun⟩
      current := rfl
      ahead := RecordStream.events_of_records rfl rfl
      given _ hrow := hrow }

/-- So many moves come to a row. -/
theorem StaticCursor.current_after_moves : ∀ (before : List Bins) (c : StaticCursor) (cl : Client),
    c.state.closed = false → c.state.done = false → c.rows = before ++ row :: rows →
      let s := afterAll (c, cl) (List.replicate (before.length + 1) .next)
      s.1.current = some row ∧ s.1.state.ensureRow = .ok ()
  | before, c, cl, hopen, hdone, hrows => by
    intro s
    have hrun : CursorCall.next.run (c, cl) = next (c, cl) := rfl
    rcases next_cases hopen cl with ⟨hd, -⟩ | ⟨-, first, rest, hrest, hn⟩ | ⟨-, hnone, -⟩
    · cases hdone.symm.trans hd
    · have hafter := after_ok (hrun.trans hn)
      cases before with
      | nil =>
        obtain ⟨hfirst, -⟩ := List.cons.inj (hrest.symm.trans hrows)
        have hs : s = CursorCall.next.after (c, cl) := rfl
        rw [hs, hafter, hfirst]
        refine ⟨rfl, ?_⟩
        simp [CursorState.ensureRow, CursorState.ensureOpen, CursorState.onRow, CursorState.advance,
          hopen, hdone, bind, Except.bind]
      | cons _ before =>
        obtain ⟨-, hrest'⟩ := List.cons.inj (hrest.symm.trans hrows)
        have hs : s = afterAll (CursorCall.next.after (c, cl))
          (List.replicate (before.length + 1) .next) := rfl
        rw [hs, hafter]
        exact current_after_moves before _ cl hopen hdone hrest'
    · rw [hrows] at hnone
      simp at hnone

/-- The call is no reading without a getter, and a getter only with one of these labels. -/
def CursorCall.ReadsOnly (labels : String → Prop) (k : CursorCall) : Prop :=
  (∀ label, k ≠ .readValue label) ∧ ∀ label, k.getter? = some label → labels label

theorem CursorCall.readsOnly_next (labels : String → Prop) : CursorCall.next.ReadsOnly labels := by
  constructor <;> intro label h <;> cases h

theorem CursorCall.readsOnly_getObject {labels : String → Prop} (h : labels label) :
    (CursorCall.getObject label).ReadsOnly labels := by
  constructor
  · intro label' hread
    cases hread
  · intro label' hget
    cases hget
    exact h

/-- All labels read alike in all rows exactly if the columns are shown under their names. -/
theorem alikeUnder_iff_named (hnames : (columns.map (·.name)).Nodup)
    (hlabels : (columns.map Column.displayLabel).Nodup) :
    (∀ row label, AlikeUnder columns row label) ↔
      ∀ c ∈ columns, c.isHidden = false ∧ c.displayLabel = c.name := by
  constructor
  · intro h c hc
    have hmeant := meant?_displayLabel hlabels hc
    -- a row with one field tells two names apart
    have hnamed : c.displayLabel = c.name := by
      by_contra hne
      have hread := (h (.ofList [(c.name, .bool true)]) _ c hmeant).2
      have hfield : (OrderedMap.ofList [(c.name, Value.bool true)]).find? c.displayLabel = none := by
        rw [OrderedMap.find?_ofList, OrderedMap.lastUnder_eq_none_iff]
        simpa using Ne.symm hne
      have hown : (OrderedMap.ofList [(c.name, Value.bool true)]).find? c.name =
          some (.bool true) := by
        rw [OrderedMap.find?_ofList]
        simp [OrderedMap.lastUnder]
      rw [Bins.read, Bins.read, hfield, hown] at hread
      cases hread
    obtain ⟨⟨w, hw, hmatch⟩, -⟩ := h {} _ c hmeant
    obtain ⟨hmem, hshown⟩ := List.mem_filter.mp hw
    have hsame : w = c := by
      rcases hmatch with hlabel | hname
      · exact List.inj_on_of_nodup_map hlabels hmem hc hlabel
      · exact List.inj_on_of_nodup_map hnames hmem hc (hname.trans hnamed)
    rw [hsame] at hshown
    exact ⟨by simpa using hshown, hnamed⟩
  · intro h row label v hv
    obtain ⟨hmem, hmatch⟩ := meant?_eq_some hv
    obtain ⟨hvisible, hnamed⟩ := h v hmem
    have hname : v.name = label := by
      rcases hmatch with hlabel | hname
      · exact hnamed.symm.trans hlabel
      · exact hname
    refine ⟨⟨v, List.mem_filter.mpr ⟨hmem, by simp [hvisible]⟩, hmatch⟩, ?_⟩
    rw [hname]

section

variable {home : SetAddress} {settings : Settings} {fallback : Fallback} {cl cl' : Client}
  {labels : String → Prop}

/-- Labels under which both cursors read the same are alike in all calls. -/
theorem sameAnswers_of_alikeUnder (hdeclared : ∀ c ∈ columns, c.needsSample = false)
    (halike : ∀ row ∈ rows, ∀ label, labels label → AlikeUnder columns row label)
    {calls : List CursorCall} (hcalls : ∀ k ∈ calls, k.ReadsOnly labels) :
    SameAnswers (StaticCursor.ofRows (.ofColumns columns) rows, cl)
      (RecordCursor.ofRows home columns settings fallback rows, cl') calls := by
  have hwild := not_isWildcard_of_declared hdeclared
  have hstep : KeepsStep (Beside columns rows) := keepsStep_beside hdeclared
  refine sameAnswers_of_inStep calls (beside_of_new home columns settings fallback rows) ?_
  intro k hk
  obtain ⟨hread, hgetter⟩ := hcalls k hk
  refine hstep.run hread fun label hlabel => Beside.getObject hwild fun row hrow => ?_
  exact halike row hrow label (hgetter label hlabel)

/-- Moving to a row and reading there tells whether both read the same. -/
theorem alikeUnder_of_sameAnswers (hdeclared : ∀ c ∈ columns, c.needsSample = false)
    {before rest : List Bins} (hrows : rows = before ++ row :: rest)
    (hsame : SameAnswers (StaticCursor.ofRows (.ofColumns columns) rows, cl)
      (RecordCursor.ofRows home columns settings fallback rows, cl')
      (List.replicate (before.length + 1) .next ++ [.getObject label])) :
    AlikeUnder columns row label := by
  let given := (StaticCursor.ofRows (.ofColumns columns) rows, cl)
  let recorded := (RecordCursor.ofRows home columns settings fallback rows, cl')
  have hmoves : ∀ k ∈ List.replicate (before.length + 1) CursorCall.next,
      InStep (Beside columns rows) k.run k.run := by
    intro k hk
    rw [List.eq_of_mem_replicate hk]
    exact Beside.next
  have hbeside := related_afterAll (s := given) (t := recorded) _
    (beside_of_new home columns settings fallback rows) hmoves
  obtain ⟨hcurrent, hrow⟩ := StaticCursor.current_after_moves before given.1 cl rfl rfl hrows
  exact hbeside.alikeUnder_of_answer (not_isWildcard_of_declared hdeclared) (hbeside.state ▸ hrow)
    hcurrent hsame.last

/-- **Both answer alike exactly if they read the same** under the labels of the getters. -/
theorem sameAnswers_iff_alikeUnder (hdeclared : ∀ c ∈ columns, c.needsSample = false) :
    (∀ calls : List CursorCall, (∀ k ∈ calls, k.ReadsOnly labels) →
      SameAnswers (StaticCursor.ofRows (.ofColumns columns) rows, cl)
        (RecordCursor.ofRows home columns settings fallback rows, cl') calls) ↔
      ∀ row ∈ rows, ∀ label, labels label → AlikeUnder columns row label := by
  constructor
  · intro hsame row hrow label hlabel
    obtain ⟨before, rest, hrows⟩ := List.append_of_mem hrow
    refine alikeUnder_of_sameAnswers hdeclared hrows (hsame _ fun k hk => ?_)
    rcases List.mem_append.mp hk with hk | hk
    · rw [List.eq_of_mem_replicate hk]
      exact CursorCall.readsOnly_next labels
    · rw [List.mem_singleton.mp hk]
      exact CursorCall.readsOnly_getObject hlabel
  · intro halike calls hcalls
    exact sameAnswers_of_alikeUnder hdeclared halike hcalls

end

/-- **When given rows are read as records of the same fields are.** Over columns with
declared types, a cursor over rows and one over records without keys that hold them
answer every sequence of calls alike whose getters have some labels, exactly if each of
these labels reads alike in each row. So if no two columns share a name or a label, they
answer alike whatever the rows and the calls are exactly if all columns are visible under
their names. -/
theorem given_rows_read_as_records (home : SetAddress) (columns : List Column)
    (settings : Settings) (fallback : Fallback) (cl cl' : Client)
    (hdeclared : ∀ c ∈ columns, c.needsSample = false) :
    let given : List Bins → StaticCursor := .ofRows (.ofColumns columns)
    let recorded : List Bins → RecordCursor := .ofRows home columns settings fallback
    (∀ (rows : List Bins) (labels : String → Prop),
      (∀ calls : List CursorCall, (∀ k ∈ calls, k.ReadsOnly labels) →
        SameAnswers (given rows, cl) (recorded rows, cl') calls) ↔
      ∀ row ∈ rows, ∀ label, labels label → AlikeUnder columns row label) ∧
    ((columns.map (·.name)).Nodup → (columns.map Column.displayLabel).Nodup →
      ((∀ (rows : List Bins) (calls : List CursorCall),
          (∀ k ∈ calls, k.ReadsOnly fun _ => True) →
            SameAnswers (given rows, cl) (recorded rows, cl') calls) ↔
        ∀ c ∈ columns, c.isHidden = false ∧ c.displayLabel = c.name)) := by
  intro given recorded
  refine ⟨fun rows labels => sameAnswers_iff_alikeUnder hdeclared, fun hnames hlabels => ?_⟩
  rw [← alikeUnder_iff_named hnames hlabels]
  constructor
  · intro h row label
    exact (sameAnswers_iff_alikeUnder hdeclared).mp (h [row]) row List.mem_cons_self label trivial
  · intro h rows calls hcalls
    exact sameAnswers_of_alikeUnder hdeclared (fun row _ label _ => h row label) hcalls

/-- A hidden column and one that is shown under its name: the name reads alike, whatever is
called, as long as nobody reads the hidden field. -/
theorem shown_name_read_as_record :
    let columns : List Column :=
      [{ name := "id", role := .hidden, type := .bigInt, schema := "test", table := "people" },
       { name := "name", type := .varchar, schema := "test", table := "people" }]
    let rows : List Bins := [.ofList [("id", .int64 1), ("name", .text "Ada")], {}]
    let given : StaticCursor := .ofRows (.ofColumns columns) rows
    let recorded : RecordCursor := .ofRows ⟨"test", "people"⟩ columns {} .nowhere rows
    let cl : Client := { store := .memory {} }
    (∀ c ∈ columns, c.needsSample = false) ∧
      (∀ calls : List CursorCall, (∀ k ∈ calls, k.ReadsOnly (· = "name")) →
        SameAnswers (given, cl) (recorded, cl) calls) ∧
      ¬ SameAnswers (given, cl) (recorded, cl) [.next, .getObject "id"] := by
  intro columns rows given recorded cl
  have hdeclared : ∀ c ∈ columns, c.needsSample = false := by decide
  obtain ⟨hsome, -⟩ :=
    given_rows_read_as_records ⟨"test", "people"⟩ columns {} .nowhere cl cl hdeclared
  refine ⟨hdeclared, (hsome rows (· = "name")).mpr ?_, fun h => ?_⟩
  · rintro row - label rfl v hv
    have hname : meant? columns "name" = some
      { name := "name", type := .varchar, schema := "test", table := "people" } := rfl
    cases hname.symm.trans hv
    exact ⟨⟨_, List.mem_cons_self, .inl rfl⟩, rfl⟩
  · have hid : Except.error (Error.columnNotFound "id") = Except.ok (Value.int64 1) := h.2.1
    cases hid

/-- A column that is labelled otherwise is found under its label in given rows, which hold
no field of that name, and read in records. -/
theorem labelled_field_null_in_given_row :
    let columns : List Column :=
      [{ name := "first_name", label := some "name", type := .varchar, schema := "test",
         table := "people" }]
    let rows : List Bins := [.ofList [("first_name", .text "Ada")]]
    let cl : Client := { store := .memory {} }
    let given := (StaticCursor.ofRows (.ofColumns columns) rows, cl)
    let recorded := (RecordCursor.ofRows ⟨"test", "people"⟩ columns {} .nowhere rows, cl)
    ((∀ c ∈ columns, c.needsSample = false) ∧ (columns.map (·.name)).Nodup ∧
      (columns.map Column.displayLabel).Nodup) ∧
      (CursorCall.findColumn "name").answer (afterAll given [.next]) = .ok 0 ∧
      (CursorCall.findColumn "name").answer (afterAll recorded [.next]) = .ok 0 ∧
      (CursorCall.getObject "name").answer (afterAll given [.next]) = .ok .null ∧
      (CursorCall.getObject "name").answer (afterAll recorded [.next]) = .ok (.text "Ada") ∧
      ¬ SameAnswers given recorded [.next, .getObject "name"] := by
  refine ⟨⟨by decide, by decide, by decide⟩, rfl, rfl, rfl, rfl, fun h => ?_⟩
  have hname : Except.ok (ε := Error) Value.null = Except.ok (Value.text "Ada") := h.2.1
  cases hname

end KeyedRows
