/-
# Visiting rows

A cursor over a stream of records visits them, one row after the other, and
its getters read each of them while the cursor is on its row
(`RecordCursor.visits_ahead`). The same holds of the cursor that a statement
gives, which has a record cursor inside (`Cursor.visits_ofRecord`).

Key definitions: `Visits`, `RecordCursor.ShowsRow`, `Cursor.Shows`.
-/
import KeyedRows.Proofs.Cursor.Carried
import KeyedRows.Proofs.Cursor.Delivery

namespace KeyedRows

section

variable {γ : Type} [RowCursor γ]

/-- Moving until no next row is found comes to rows that show these records,
one after the other. -/
inductive Visits (shows : γ × Client → Record → Prop) :
    γ × Client → List Record → γ × Client → Prop where
  | ended {s t : γ × Client} : RowCursor.next s = .ok false t → Visits shows s [] t
  | moved {s t u : γ × Client} {r : Record} {rs : List Record} :
      RowCursor.next s = .ok true t → shows t r → Visits shows t rs u → Visits shows s (r :: rs) u

/-- A visit of one record comes to one row, and then to no other. -/
theorem Visits.of_singleton {shows : γ × Client → Record → Prop} {s u : γ × Client} {r : Record}
    (h : Visits shows s [r] u) :
    ∃ t, RowCursor.next s = .ok true t ∧ shows t r ∧ RowCursor.next t = .ok false u := by
  cases h with
  | moved hmove hshows hrest =>
    cases hrest with
    | ended hend => exact ⟨_, hmove, hshows, hend⟩

end

namespace RecordCursor

/-- The row is this record, and the getters read it. -/
structure ShowsRow (columns : List Column) (settings : Settings) (s : RecordCursor × Client)
    (r : Record) : Prop where
  onRow : s.1.state.ensureRow = .ok ()
  current : s.1.current = some r
  reads : Reads s (reading columns settings r)

/-- **A cursor on a stream of records visits all of them**, and asks the client
for nothing. -/
theorem visits_ahead : ∀ (rs : List Record) (c : RecordCursor) (cl : Client), WellPlaced c →
    c.ahead = rs.map .ok → ∃ d, Visits (ShowsRow c.columns c.settings) (c, cl) rs (d, cl)
  | [], c, cl, h, ha => by
    rcases next_cases h cl with ⟨r, d, hn, -, hr, -⟩ | ⟨d, hn, -⟩ | ⟨e, d, hn, ht, -⟩
    · rw [ha] at hr
      cases hr
    · exact ⟨d, .ended hn⟩
    · exact absurd ht (not_took_of_ahead ha)
  | r :: rs, c, cl, h, ha => by
    rcases next_cases h cl with ⟨r', d, hn, hd, hr, hc, hs, hcur, -⟩ | ⟨d, hn, -, h0, -⟩ |
        ⟨e, d, hn, ht, -⟩
    · rw [ha, List.map_cons, List.cons.injEq, Except.ok.injEq] at hr
      obtain ⟨rfl, hrest⟩ := hr
      obtain ⟨u, hvisits⟩ := visits_ahead rs d cl hd hrest.symm
      rw [hc, hs] at hvisits
      refine ⟨u, .moved hn ⟨by rw [hd.ensureRow, hcur]; rfl, hcur, ?_⟩ hvisits⟩
      rw [← hc, ← hs]
      exact reads_of_current (s := (d, cl)) hd hcur
    · rw [ha] at h0
      cases h0
    · exact absurd ht (not_took_of_ahead ha)

end RecordCursor

/-! ### Cursors of any kind -/

/-- The record of the current row; a given row has no key. -/
def BaseCursor.row : BaseCursor → Option Record
  | .record c => c.current
  | .static c => c.current.map fun bins => ⟨none, bins⟩

/-- The record of the current row under the filters. -/
def CursorStack.row : (n : ℕ) → CursorStack n → Option Record
  | 0, c => BaseCursor.row c
  | n + 1, c => CursorStack.row n (c : FilteredCursor (CursorStack n)).inner

namespace Cursor

/-- The row is this record, and the getters read these values of it. -/
structure Shows (values : Record → String → Except Error Value) (s : Cursor × Client)
    (r : Record) : Prop where
  row : s.1.stack.row = some r
  reads : Reads s (values r)

theorem next_ofRecord {c d : RecordCursor} {cl cl' : Client} {b : Bool}
    (h : RowCursor.next (c, cl) = .ok b (d, cl')) :
    RowCursor.next (ofRecord c, cl) = .ok b (ofRecord d, cl') :=
  (carries_ofRecord.next (c, cl)).trans (congrArg (mapCursor ofRecord) h)

theorem shows_ofRecord {columns : List Column} {settings : Settings}
    {s : RecordCursor × Client} {r : Record}
    (h : RecordCursor.ShowsRow columns settings s r) :
    Shows (RecordCursor.reading columns settings) (ofRecord s.1, s.2) r where
  row := h.current
  reads := RowCursor.reads_of_readValue h.onRow fun label => by
    rw [carries_ofRecord.answer (.readValue label) s]
    exact h.reads.readValue label

theorem visits_ofRecord {columns : List Column} {settings : Settings} {s t : RecordCursor × Client}
    {rs : List Record} (h : Visits (RecordCursor.ShowsRow columns settings) s rs t) :
    Visits (Shows (RecordCursor.reading columns settings)) (ofRecord s.1, s.2) rs
      (ofRecord t.1, t.2) := by
  induction h with
  | ended hn => exact .ended (next_ofRecord hn)
  | moved hn hs _ ih => exact .moved (next_ofRecord hn) (shows_ofRecord hs) ih

end Cursor

end KeyedRows
