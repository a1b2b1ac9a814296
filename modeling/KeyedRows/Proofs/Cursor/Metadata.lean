/-
# The metadata that a record cursor keeps

No call changes the columns of a record cursor, and only asking for metadata
makes the cursor keep some (`sameShape_of_call`). So what holds of all metadata
that cursors make of their columns, and of those that a cursor was given, holds
of all that it ever keeps or answers with (`Keeps.after`, `Keeps.metadata_asked`).
Metadata that are made show the columns, as they are or resolved against a
sample (`columns_of_compute`); of columns without a wildcard they tell the names
and labels, whichever record was sampled (`describes_of_compute`).

Key definitions: `SameShape`, `Describes`, `Keeps`, `Makes`, `Described`.
-/
import KeyedRows.Proofs.Cursor.Closed
import KeyedRows.Proofs.Schema.Visible

namespace KeyedRows

open CursorM CursorCall

/-- The metadata show the names and labels of these columns. -/
def Describes (m : ResultMetadata) (columns : List Column) : Prop :=
  m.visible.map Column.title = (Discovery.shown columns).map Column.title

namespace RecordCursor

/-- The second cursor has the columns and the metadata of the first. -/
structure SameShape (c d : RecordCursor) : Prop where
  columns : d.columns = c.columns
  settings : d.settings = c.settings
  metadata : d.metadata = c.metadata

variable {c d : RecordCursor} {cl : Client} {k : CursorCall}

theorem Still.sameShape {s t : RecordCursor × Client} (h : Still s t) : SameShape s.1 t.1 :=
  ⟨h.columns, h.settings, h.sameMetadata⟩

theorem Consults.sameShape {s t : RecordCursor × Client} (h : Consults s t) : SameShape s.1 t.1 :=
  ⟨h.columns, h.settings, h.sameMetadata⟩

theorem close_sameShape (s : RecordCursor × Client) :
    SameShape s.1 (CursorCall.close.after s).1 := by
  rw [close_after_eq s.1 s.2]
  split_ifs <;> exact ⟨rfl, rfl, rfl⟩

/-- **Only asking for metadata changes the metadata that are kept**, and nothing
changes the columns. -/
theorem sameShape_of_call (hk : k.asksMetadata = false) (s : RecordCursor × Client) :
    SameShape s.1 (k.after s).1 := by
  by_cases hclose : k = .close
  · subst hclose
    exact close_sameShape s
  · exact (still_of_call hclose hk s).sameShape

/-- No call changes the columns of a cursor or its settings. -/
theorem columns_of_call (k : CursorCall) (s : RecordCursor × Client) :
    (k.after s).1.columns = s.1.columns ∧ (k.after s).1.settings = s.1.settings := by
  by_cases hclose : k = .close
  · subst hclose
    exact close_columns s.1 s.2
  · have hstirred := (stirred_of_call hclose s).1
    exact ⟨hstirred.columns, hstirred.settings⟩

/-! ### What metadata tell -/

theorem columns_metadataOf (home : SetAddress) (resolved : List Column) :
    (metadataOf home resolved).columns = resolved := by
  unfold metadataOf
  split_ifs with h
  · rw [List.isEmpty_iff.mp h]
    rfl
  · rfl

/-- **Metadata that the cursor makes** show its columns, as they are or resolved
against a sample. -/
theorem columns_of_compute {m : ResultMetadata} {t : RecordCursor × Client}
    (hm : computeMetadata (c, cl) = .ok m t) :
    m.columns = c.columns ∨
      ∃ samplesOf reserved, m.columns = Discovery.resolve c.columns samplesOf reserved := by
  unfold computeMetadata at hm
  simp only [bind_apply, cursor_apply] at hm
  split_ifs at hm with hneeds
  · cases hm
    exact .inl rfl
  · simp only [bind_apply] at hm
    cases hs : sample (c, cl) with
    | error e u =>
      rw [hs] at hm
      cases hm
    | ok r u =>
      rw [hs] at hm
      cases hm
      exact .inr ⟨_, _, columns_metadataOf c.home _⟩

/-- Metadata that are made of columns without a wildcard tell their names and
labels. -/
theorem describes_of_compute (hw : ∀ col ∈ c.columns, col.isWildcard = false)
    {m : ResultMetadata} {t : RecordCursor × Client} (hm : computeMetadata (c, cl) = .ok m t) :
    Describes m c.columns := by
  have hvisible : m.visible = Discovery.shown m.columns := rfl
  rw [Describes, hvisible]
  rcases columns_of_compute hm with h | ⟨samplesOf, reserved, h⟩
  · rw [h]
  · rw [h]
    exact Discovery.shown_resolve_titles c.columns hw

/-- Metadata that were given once are given again. -/
theorem getMetadata_again (h : WellPlaced c) {m : ResultMetadata} {t : RecordCursor × Client}
    (hm : getMetadata (c, cl) = .ok m t) : getMetadata t = .ok m t := by
  rcases metadata_cases h.isOpen cl with ⟨m', -, hr⟩ | ⟨m', u, -, -, hr⟩ | ⟨e, u, -, -, hr⟩
  · rw [hr] at hm
    cases hm
    exact hr
  · have hopen := getMetadata_asked h cl
    rw [hr] at hm hopen
    cases hm
    have hclosed : u.1.state.closed = false := hopen.placed.isOpen
    simp [getMetadata, bind_apply, CursorState.ensureOpen, hclosed]
  · rw [hr] at hm
    cases hm

/-! ### What is kept -/

/-- The metadata that the cursor keeps, if any, are such for its columns. -/
def Keeps (P : List Column → ResultMetadata → Prop) (c : RecordCursor) : Prop :=
  ∀ m, c.metadata = some m → P c.columns m

/-- All metadata that cursors make are such for their columns. -/
def Makes (P : List Column → ResultMetadata → Prop) : Prop :=
  ∀ (c : RecordCursor) (cl : Client) (m : ResultMetadata) (t : RecordCursor × Client),
    computeMetadata (c, cl) = .ok m t → P c.columns m

section

variable {P : List Column → ResultMetadata → Prop}

theorem SameShape.keeps (h : SameShape c d) (hc : Keeps P c) : Keeps P d := by
  intro m hm
  rw [h.columns]
  exact hc m (h.metadata ▸ hm)

/-- Asked for metadata, a cursor answers with such, and keeps such from then on. -/
theorem Keeps.metadata_asked (hmakes : Makes P) (h : Keeps P c) (cl : Client) :
    Keeps P (CursorCall.metadata.after (c, cl)).1 ∧
      ∀ m, CursorCall.metadata.answer (c, cl) = .ok m → P c.columns m := by
  have hrun : CursorCall.metadata.run (c, cl) = getMetadata (c, cl) := rfl
  cases hclosed : c.state.closed with
  | true =>
    have hr := hrun.trans (getMetadata_closed hclosed cl)
    rw [after_error hr, answer_error hr]
    exact ⟨h, nofun⟩
  | false =>
    have hshape := (consults_computeMetadata (c, cl)).sameShape
    rcases metadata_cases hclosed cl with ⟨m, hkept, hm⟩ | ⟨m, t, -, hmade, hm⟩ |
        ⟨e, t, -, hmade, hm⟩
    · have hr := hrun.trans hm
      rw [after_ok hr, answer_ok hr]
      refine ⟨h, fun m' hm' => ?_⟩
      cases hm'
      exact h m hkept
    · have hr := hrun.trans hm
      have hsuch : P c.columns m := hmakes c cl m t hmade
      rw [leaves_ok hmade] at hshape
      rw [after_ok hr, answer_ok hr]
      refine ⟨fun m' hm' => ?_, fun m' hm' => ?_⟩
      · cases hm'
        have hsame : t.1.columns = c.columns := hshape.columns
        exact hsame ▸ hsuch
      · cases hm'
        exact hsuch
    · have hr := hrun.trans hm
      rw [leaves_error hmade] at hshape
      rw [after_error hr, answer_error hr]
      exact ⟨hshape.keeps h, nofun⟩

/-- **Every call keeps it.** -/
theorem Keeps.after (hmakes : Makes P) {s : RecordCursor × Client} (h : Keeps P s.1)
    (k : CursorCall) : Keeps P (k.after s).1 := by
  cases hk : k.asksMetadata with
  | false => exact (sameShape_of_call hk s).keeps h
  | true =>
    rw [RowCursor.asks_after hk]
    exact (h.metadata_asked hmakes s.2).1

end

/-- The metadata tell the columns, if none of these is a wildcard. -/
def DescribesPlain (columns : List Column) (m : ResultMetadata) : Prop :=
  (∀ col ∈ columns, col.isWildcard = false) → Describes m columns

theorem makes_describesPlain : Makes DescribesPlain := fun _ _ _ _ hm hw =>
  describes_of_compute hw hm

/-- A cursor over these columns, which the metadata that it keeps tell. -/
structure Described (columns : List Column) (settings : Settings) (c : RecordCursor) : Prop where
  sameColumns : c.columns = columns
  sameSettings : c.settings = settings
  tells : ∀ m, c.metadata = some m → Describes m columns

variable {columns : List Column} {settings : Settings}

theorem Described.keeps (h : Described columns settings c) : Keeps DescribesPlain c := by
  intro m hm _
  rw [h.sameColumns]
  exact h.tells m hm

/-- Every call keeps it. -/
theorem Described.after {s : RecordCursor × Client} (h : Described columns settings s.1)
    (hw : ∀ col ∈ columns, col.isWildcard = false) (k : CursorCall) :
    Described columns settings (k.after s).1 := by
  obtain ⟨hcolumns, hsettings⟩ := columns_of_call k s
  have hsame : (k.after s).1.columns = columns := hcolumns.trans h.sameColumns
  refine ⟨hsame, hsettings.trans h.sameSettings, fun m hm => ?_⟩
  have hkept := h.keeps.after makes_describesPlain k m hm
  rw [hsame] at hkept
  exact hkept hw

/-- The metadata that are answered tell the columns, and so do those that are
kept then. -/
theorem Described.metadata_asked (h : Described columns settings c)
    (hw : ∀ col ∈ columns, col.isWildcard = false) (cl : Client) :
    Described columns settings (CursorCall.metadata.after (c, cl)).1 ∧
      ∀ m, CursorCall.metadata.answer (c, cl) = .ok m → Describes m columns := by
  refine ⟨Described.after (s := (c, cl)) h hw .metadata, fun m hm => ?_⟩
  have htold := (h.keeps.metadata_asked makes_describesPlain cl).2 m hm
  rw [h.sameColumns] at htold
  exact htold hw

/-- **Whatever was called, the metadata that a cursor over columns without a
wildcard keeps tell them**, if those that it was given do. -/
theorem described_of_calls (h : Described columns settings c)
    (hw : ∀ col ∈ columns, col.isWildcard = false) (calls : List CursorCall) :
    Described columns settings (afterAll (c, cl) calls).1 :=
  (exchanges_keep (I := fun s => Described columns settings s.1)
    (fun _ k hs (_ : True) => hs.after hw k) calls (c, cl) h fun _ _ => trivial).1

end RecordCursor
end KeyedRows
