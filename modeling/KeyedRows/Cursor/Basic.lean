/-
# Cursors over rows

A cursor moves over rows and reads fields of the row it stands on by label.
Every call works on the cursor together with the client that it may have to
ask, and may fail; what a failed call has changed stays changed.

A kind of cursor says how to move, to close, to read and to give metadata, and
where its state is. All other calls are the same for every kind.

Key definitions: `CursorM`, `RowCursor`, `RowCursor.getObject`,
`RowCursor.get`, `RowCursor.findColumn`, `RowCursor.first`,
`RowCursor.setFetchDirection`.
-/
import KeyedRows.Cursor.State
import KeyedRows.Schema.Metadata
import KeyedRows.Store.Client
import KeyedRows.Typed.Basic

namespace KeyedRows

/-- A call on a cursor. -/
abbrev CursorM (γ : Type) := EStateM Error (γ × Client)

namespace CursorM

variable {γ δ α : Type}

/-- A call that only asks the client. -/
def onClient (op : ClientM α) : CursorM γ α := fun (c, cl) =>
  match op cl with
  | .ok a cl => .ok a (c, cl)
  | .error e cl => .error e (c, cl)

/-- A call on a cursor inside another one. -/
def onPart (part : γ → δ) (put : γ → δ → γ) (op : CursorM δ α) : CursorM γ α := fun (c, cl) =>
  match op (part c, cl) with
  | .ok a (d, cl) => .ok a (put c d, cl)
  | .error e (d, cl) => .error e (put c d, cl)

/-- The cursor itself. -/
def cursor : CursorM γ γ := fun s => .ok s.1 s

/-- The cursor changed by a function. -/
def change (f : γ → γ) : CursorM γ Unit := fun (c, cl) => .ok () (f c, cl)

end CursorM

/-- A kind of cursor. `remaining` bounds how often it can still move to a row. -/
class RowCursor (γ : Type) where
  state : γ → CursorState
  withState : γ → CursorState → γ
  remaining : γ → Nat
  /-- Moves to the next row, if there is one. -/
  next : CursorM γ Bool
  close : CursorM γ Unit
  metadata : CursorM γ ResultMetadata
  /-- The value under a label in the current row. -/
  readValue : String → CursorM γ Value
  /-- The current row is the last. -/
  isLast : CursorM γ Bool

/-- The direction in which rows are asked for. -/
inductive FetchDirection where
  | forward
  | reverse
  | unknown
deriving DecidableEq

def FetchDirection.name : FetchDirection → String
  | .forward => "Forward"
  | .reverse => "Reverse"
  | .unknown => "Unknown"

namespace RowCursor

variable {γ : Type} [RowCursor γ]

/-- The state of the cursor. -/
def getState : CursorM γ CursorState := do return state (← CursorM.cursor)

/-- The state changed by a function. -/
def onState (f : CursorState → CursorState) : CursorM γ Unit :=
  CursorM.change fun c => withState c (f (state c))

/-- Refuses to go on with a closed cursor. -/
def ensureOpen : CursorM γ Unit := do ofExcept (← getState (γ := γ)).ensureOpen

/-- Refuses to go on with a cursor that is not on a row. -/
def ensureRow : CursorM γ Unit := do ofExcept (← getState (γ := γ)).ensureRow

/-- The value under a label; the cursor remembers whether it was null. -/
def getObject (label : String) : CursorM γ Value := do
  ensureRow
  let v ← readValue label
  onState (·.recordRead v)
  return v

/-- The value under a label, read as a type. -/
def get (α : Type) [Readable α] (label : String) : CursorM γ α := do
  ofExcept (Readable.read (← getObject label))

/-- The index of a label among the visible columns. -/
def findColumn (label : String) : CursorM γ Nat := do
  ofExcept ((← metadata (γ := γ)).findColumn label)

/-- Moves to the first row, which can be done only once. -/
def first : CursorM γ Bool := do
  ensureOpen
  if (← getState (γ := γ)).isBeforeFirst then next
  else throw (.forwardOnly "cannot rewind: first")

/-- The moves that no cursor makes. -/
inductive Scroll where
  | absolute
  | relative
  | previous
  | beforeFirst
  | afterLast
  | last
deriving DecidableEq

def Scroll.name : Scroll → String
  | .absolute => "absolute"
  | .relative => "relative"
  | .previous => "previous"
  | .beforeFirst => "beforeFirst"
  | .afterLast => "afterLast"
  | .last => "last"

/-- Refuses every move but the next row. -/
def scroll (s : Scroll) : CursorM γ Unit := throw (.forwardOnly s.name)

/-- Any direction but forward is noted in a warning. -/
def setFetchDirection (d : FetchDirection) : CursorM γ Unit := do
  ensureOpen
  if d ≠ .forward then
    onState (·.warn s!"fetch direction {d.name} is not supported; using Forward")

def fetchDirection : FetchDirection := .forward

def fetchSize : Nat := 1

/-- Rows are fetched one at a time; zero asks for the default. -/
def setFetchSize (rows : Nat) : CursorM γ Unit :=
  if rows ≤ 1 then pure () else throw (.forwardOnly "fetch size other than 1")

def clearWarnings : CursorM γ Unit := onState CursorState.clearWarnings

end RowCursor
end KeyedRows
