/-
# Cursors over given rows

The rows and their metadata are given from the start; a label means the field
of that name.

Key definitions: `StaticCursor`, `StaticCursor.constant`, `StaticCursor.empty`.
-/
import KeyedRows.Cursor.Basic

namespace KeyedRows

structure StaticCursor where
  rows : List Bins
  metadata : ResultMetadata
  current : Option Bins := none
  state : CursorState := {}

namespace StaticCursor

def ofRows (metadata : ResultMetadata) (rows : List Bins) : StaticCursor := { rows, metadata }

/-- One row without columns. -/
def constant : StaticCursor := ofRows {} [{}]

/-- No rows. -/
def empty (metadata : ResultMetadata) : StaticCursor := ofRows metadata []

def next : CursorM StaticCursor Bool := do
  let c ← CursorM.cursor
  ofExcept c.state.ensureOpen
  if c.state.done then return false
  match c.rows with
  | row :: rows =>
    CursorM.change fun c => { c with rows, current := some row, state := c.state.advance }
    return true
  | [] =>
    CursorM.change fun c => { c with current := none, state := c.state.finish }
    return false

/-- The first closing drops the rows. -/
def close : CursorM StaticCursor Unit :=
  CursorM.change fun c =>
    if c.state.closed then c else { c with state := c.state.close, rows := [], current := none }

def getMetadata : CursorM StaticCursor ResultMetadata := do
  let c ← CursorM.cursor
  ofExcept c.state.ensureOpen
  return c.metadata

/-- The field of that name in the current row, for a label of a column. -/
def read (c : StaticCursor) (label : String) : Except Error Value := do
  let _ ← c.metadata.findColumn label
  return (c.current.map (Bins.read · label)).getD .null

def isLast : CursorM StaticCursor Bool := do
  let c ← CursorM.cursor
  ofExcept c.state.ensureOpen
  return c.current.isSome && c.rows.isEmpty

instance : RowCursor StaticCursor where
  state := StaticCursor.state
  withState c s := { c with state := s }
  remaining c := c.rows.length
  next := next
  close := close
  metadata := getMetadata
  readValue label := do ofExcept ((← CursorM.cursor).read label)
  isLast := isLast

end StaticCursor
end KeyedRows
