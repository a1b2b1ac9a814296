/-
# Labels that are told can be read

Metadata show columns under their labels, and rows are read under labels that are
resolved among the columns of the statement. Whichever columns are told, those of
the statement or what they became with a sample, each of their labels means
something among them: it is the label of a column, or there is a wildcard, beside
which every label is the name of a field (`resolveLabel_of_resolved`). Metadata that
a cursor is given or makes are such (`gives_openCursor_meaningful`,
`makes_meaningful`), and so are those that it keeps. So on every later row each
label is found, and read, through the test of the rows as well
(`Cursor.Legible.reads`).

Key definitions: `Meaningful`, `Cursor.Legible`.
Key theorem: **`told_labels_readable`**.
-/
import KeyedRows.Proofs.Cursor.Labels
import KeyedRows.Proofs.Cursor.Resting
import KeyedRows.Proofs.Statement.Released
import KeyedRows.Proofs.Statement.RoundTrips

namespace KeyedRows

open CursorM CursorCall

/-! ### Labels and columns -/

namespace RecordCursor

variable {columns : List Column} {m : ResultMetadata}

/-- Beside a wildcard every label means something. -/
theorem resolveLabel_of_wildcard (h : columns.any Column.isWildcard = true) (label : String) :
    ∃ meant, resolveLabel columns label = .ok meant := by
  unfold resolveLabel
  simp only [h, if_true]
  cases (columns.find? (·.displayLabel == label)).or (columns.find? (·.name == label)) with
  | none => exact ⟨_, rfl⟩
  | some c =>
    by_cases hc : c.isWildcard = true
    · exact ⟨_, if_pos hc⟩
    · exact ⟨_, if_neg hc⟩

/-- The label of a column means something. -/
theorem resolveLabel_of_mem {c : Column} (hc : c ∈ columns) :
    ∃ meant, resolveLabel columns c.displayLabel = .ok meant := by
  by_cases hwild : columns.any Column.isWildcard = true
  · exact resolveLabel_of_wildcard hwild _
  · have hsome : (columns.find? (·.displayLabel == c.displayLabel)).isSome = true :=
      List.find?_isSome.mpr ⟨c, hc, by simp⟩
    obtain ⟨d, hd⟩ := Option.isSome_iff_exists.mp hsome
    have hplain : d.isWildcard = false := by
      by_contra h
      rw [Bool.not_eq_false] at h
      exact hwild (List.any_eq_true.mpr ⟨d, List.mem_of_find?_eq_some hd, h⟩)
    exact ⟨(d.name, d.role), by simp [resolveLabel, hd, hplain]⟩

/-- **The label of what a column becomes** means something among the columns. -/
theorem resolveLabel_of_resolved {samplesOf : Column → List Bins} {reserved : List String}
    {d : Column} (hd : d ∈ Discovery.resolve columns samplesOf reserved) :
    ∃ meant, resolveLabel columns d.displayLabel = .ok meant := by
  obtain ⟨c, hc, hd⟩ := List.mem_flatMap.mp hd
  have hown := resolveLabel_of_mem hc
  cases Discovery.comesOutOf_of_mem hd with
  | declared _ => exact hown
  | undeclared _ _ => exact hown
  | field hw _ _ => exact resolveLabel_of_wildcard (List.any_eq_true.mpr ⟨c, hc, hw⟩) _

/-- Each label of the metadata means something among the columns. -/
def Meaningful (columns : List Column) (m : ResultMetadata) : Prop :=
  ∀ label ∈ m.labels, ∃ meant, resolveLabel columns label = .ok meant

theorem meaningful_of_columns
    (h : ∀ d ∈ m.columns, ∃ meant, resolveLabel columns d.displayLabel = .ok meant) :
    Meaningful columns m := by
  intro label hlabel
  obtain ⟨d, hd, rfl⟩ := List.mem_map.mp hlabel
  exact h d (List.mem_filter.mp hd).1

/-- **Metadata that a cursor makes are meaningful.** -/
theorem makes_meaningful : Makes Meaningful := by
  intro c cl m t hm
  apply meaningful_of_columns
  intro d hd
  rcases columns_of_compute hm with h | ⟨samplesOf, reserved, h⟩
  · rw [h] at hd
    exact resolveLabel_of_mem hd
  · rw [h] at hd
    exact resolveLabel_of_resolved hd

variable {c : RecordCursor}

/-- On a row an open cursor tells metadata. -/
theorem metadata_of_row (hopen : c.state.closed = false) (hrow : c.current.isSome = true)
    (cl : Client) : ∃ m, CursorCall.metadata.answer (c, cl) = .ok m := by
  have hrun : CursorCall.metadata.run (c, cl) = getMetadata (c, cl) := rfl
  obtain ⟨made, hmade⟩ := computeMetadata_onRow hrow cl
  rcases metadata_cases hopen cl with ⟨m, -, hm⟩ | ⟨m, t, -, -, hm⟩ | ⟨e, t, -, hfailed, -⟩
  · exact ⟨m, answer_ok (hrun.trans hm)⟩
  · exact ⟨m, answer_ok (hrun.trans hm)⟩
  · cases hmade.symm.trans hfailed

/-- On a row a cursor reads what a label means. -/
theorem Settled.getObject_of_meant (h : Settled c) (hrow : c.state.ensureRow = .ok ())
    {label : String} (hlabel : ∃ meant, resolveLabel c.columns label = .ok meant) (cl : Client) :
    ∃ v, (CursorCall.getObject label).answer (c, cl) = .ok v := by
  obtain ⟨⟨name, role⟩, hmeant⟩ := hlabel
  obtain ⟨hplaced, r, hr⟩ := h.placed_of_row hrow
  have hreads := (reads_of_current (s := (c, cl)) hplaced hr).getObject label
  exact ⟨_, hreads.trans (reading_of_resolveLabel hmeant r)⟩

end RecordCursor

/-- Metadata find their labels. -/
theorem ResultMetadata.findColumn_of_mem {m : ResultMetadata} {label : String}
    (h : label ∈ m.labels) : ∃ i, m.findColumn label = .ok i := by
  obtain ⟨d, hd, rfl⟩ := List.mem_map.mp h
  unfold findColumn
  cases hfind : m.visible.findIdx? fun c =>
      c.displayLabel == d.displayLabel || c.name == d.displayLabel with
  | some i => exact ⟨i, rfl⟩
  | none =>
    have hnone := List.findIdx?_eq_none_iff.mp hfind d hd
    simp at hnone

theorem RowCursor.findColumn_answer {γ : Type} [RowCursor γ] (label : String) (s : γ × Client) :
    (CursorCall.findColumn label).answer s =
      CursorCall.metadata.answer s >>= fun m => m.findColumn label := by
  obtain ⟨c, cl⟩ := s
  simp only [CursorCall.answer, CursorCall.run, findColumn_apply]
  cases (metadata (c, cl) : EStateM.Result Error (γ × Client) ResultMetadata) with
  | ok m t =>
    simp only [bind, Except.bind]
    cases m.findColumn label <;> rfl
  | error e t => rfl

/-! ### Cursors over records -/

/-- A cursor over records under one filter or none, which is not closed before the one
under it, and all metadata that it keeps are meaningful. -/
structure Cursor.Legible (c : Cursor) : Prop where
  tight : c.Tight
  single : c.filters ≤ 1
  base : ∃ r, c.base = .record r ∧ r.Settled ∧ r.Keeps RecordCursor.Meaningful

namespace Cursor.Legible

variable {s : Cursor × Client} {m : ResultMetadata}

/-- Every call keeps it. -/
theorem after (h : s.1.Legible) (k : CursorCall) : (k.after s).1.Legible where
  tight := tight_of_call h.tight k
  single := by
    rw [after_eq_mk]
    exact h.single
  base := by
    refine bottom_keeps (P := fun t => ∃ r, t.1 = .record r ∧ r.Settled ∧
      r.Keeps RecordCursor.Meaningful) ?_ h.base k
    rintro ⟨b, cl⟩ k ⟨r, rfl, hsettled, hkeeps⟩
    rw [BaseCursor.carries_record.after k (r, cl)]
    exact ⟨_, rfl, hsettled.after k, hkeeps.after (s := (r, cl)) RecordCursor.makes_meaningful k⟩

theorem of_calls (h : s.1.Legible) (calls : List CursorCall) : (afterAll s calls).1.Legible :=
  (exchanges_keep (I := fun t : Cursor × Client => t.1.Legible)
    (fun _ k ht (_ : True) => ht.after k) calls s h fun _ _ => trivial).1

/-- On rows throughout, metadata are told. -/
theorem tells (h : s.1.Legible) (hrows : s.1.OnRows) :
    ∃ m, CursorCall.metadata.answer s = .ok m := by
  obtain ⟨r, hr, hsettled, -⟩ := h.base
  have hbase := hrows.base
  have hopen := (CursorState.ensureRow_eq_ok.mp hbase).1
  rw [hr] at hbase
  obtain ⟨hplaced, record, hcurrent⟩ := hsettled.placed_of_row hbase
  have hbottom : bottom s = (.record r, s.2) := Prod.ext hr rfl
  rw [(metadata_open (h.tight.agrees hopen)).1, hbottom,
    BaseCursor.carries_record.answer .metadata (r, s.2)]
  exact RecordCursor.metadata_of_row hplaced.isOpen (by rw [hcurrent]; rfl) s.2

/-- The record cursor under the filters keeps these metadata, and their labels mean
something to it. -/
theorem meant (h : s.1.Legible) (htold : s.1.base.Told m) {label : String}
    (hlabel : label ∈ m.labels) : ∃ r, bottom s = (.record r, s.2) ∧ r.Settled ∧
      r.metadata = some m ∧ ∃ meant, RecordCursor.resolveLabel r.columns label = .ok meant := by
  obtain ⟨r, hr, hsettled, hkeeps⟩ := h.base
  obtain ⟨r', hr', hm⟩ := htold
  obtain rfl : r = r' := BaseCursor.record.inj (hr.symm.trans hr')
  exact ⟨r, Prod.ext hr rfl, hsettled, hm, hkeeps m hm label hlabel⟩

/-- **On rows throughout, every label of the metadata that are kept is found and
read.** -/
theorem reads (h : s.1.Legible) (htold : s.1.base.Told m) (hrows : s.1.OnRows) {label : String}
    (hlabel : label ∈ m.labels) :
    (∃ i, (CursorCall.findColumn label).answer s = .ok i) ∧
      ∃ v, (CursorCall.getObject label).answer s = .ok v := by
  have hbase := hrows.base
  have hagrees := h.tight.agrees (CursorState.ensureRow_eq_ok.mp hbase).1
  constructor
  · obtain ⟨i, hi⟩ := ResultMetadata.findColumn_of_mem hlabel
    exact ⟨i, by rw [RowCursor.findColumn_answer, answer_of_told hagrees htold]; exact hi⟩
  · obtain ⟨r, hbottom, hsettled, -, hmeant⟩ := h.meant htold hlabel
    rw [show s.1.base = .record r from congrArg Prod.fst hbottom] at hbase
    obtain ⟨v, hv⟩ := hsettled.getObject_of_meant hbase hmeant s.2
    refine ⟨v, ?_⟩
    calc (CursorCall.getObject label).answer s
        = (CursorCall.getObject label).answer (bottom s) := hrows.getObject label
      _ = (CursorCall.getObject label).answer (r, s.2) := by
          rw [hbottom, BaseCursor.carries_record.answer (.getObject label) (r, s.2)]
      _ = .ok v := hv

end Cursor.Legible

/-! ### Statements -/

namespace RowStatement

variable {st : RowStatement} {home : SetAddress}

/-- The cursor stands on a row, and the one under the test does so, too, unless the test
has moved or closed it. -/
def OnRow (st : RowStatement) (c : Cursor) : Prop :=
  (RowCursor.state c).ensureRow = .ok () ∧
    (st.Looks ∨ (RowCursor.state c.base).ensureRow = .ok ())

/-- On a row of the statement's cursor there are rows throughout. -/
theorem OnRow.rows {s : Cursor × Client} (hlegible : s.1.Legible)
    (hlooks : st.Looks → s.1.Uniform ∧ s.1.Rests) (calls : List CursorCall)
    (h : st.OnRow (afterAll s calls).1) : (afterAll s calls).1.OnRows := by
  obtain ⟨hrow, hlook | hbase⟩ := h
  · obtain ⟨huniform, hrests⟩ := hlooks hlook
    exact Cursor.onRows_of_calls huniform hrests calls hrow
  · exact Cursor.onRows_of_base (hlegible.of_calls calls).single hrow hbase

end RowStatement

end KeyedRows
