/-
# The rows of a statement

A statement that reads a set is given a cursor over a stream, with the
projected columns. If types are to be discovered up front, this is done
before the stream is opened and gives the cursor its metadata; otherwise the
cursor samples, and may ask for any record of the set.

Key definition: `openCursor`.
-/
import KeyedRows.Cursor.Record

namespace KeyedRows.Statement

/-- The cursor over the rows that `source` opens. -/
def openCursor (settings : Settings) (discovers : Bool) (home : SetAddress)
    (columns : List Column) (source : ClientM RecordStream) : ClientM RecordCursor := do
  if discovers && columns.any Column.needsSample then
    let resolved ← Client.discover settings columns
    let stream ← source
    return { home, columns, settings, stream,
             metadata := some (RecordCursor.metadataOf home resolved) }
  else
    let stream ← source
    return { home, columns, settings, stream, fallback := .anyRecord home }

end KeyedRows.Statement
