/-
# The state of a cursor

Where a cursor stands, whether it is closed, what the last read saw, and its
warnings. A cursor starts before its first row, moves forward row by row,
stands after its last row in the end, and can be closed at any time.

Key definitions: `CursorState`, `advance`, `finish`, `ensureOpen`,
`ensureRow`, `row`.
-/
import KeyedRows.Error

namespace KeyedRows

/-- The position counts the rows that the cursor has stood on; `done` says
that it stands after the last. -/
structure CursorState where
  position : Nat := 0
  done : Bool := false
  closed : Bool := false
  wasNull : Bool := false
  warnings : List String := []
deriving DecidableEq, Inhabited

namespace CursorState

/-- On the next row; the warnings of the row before are gone. -/
def advance (s : CursorState) : CursorState :=
  { s with position := s.position + 1, warnings := [] }

/-- After the last row. -/
def finish (s : CursorState) : CursorState := { s with done := true }

def close (s : CursorState) : CursorState := { s with closed := true }

def ensureOpen (s : CursorState) : Except Error Unit :=
  if s.closed then .error (.closed "cursor") else .ok ()

/-- The cursor stands on a row: it has moved and is not after the last. -/
def onRow (s : CursorState) : Bool := s.position != 0 && !s.done

def ensureRow (s : CursorState) : Except Error Unit := do
  s.ensureOpen
  if s.onRow then .ok () else .error .outsideRow

/-- The last read saw this value. -/
def recordRead (s : CursorState) (v : Value) : CursorState := { s with wasNull := v.isNull }

def warn (s : CursorState) (warning : String) : CursorState :=
  { s with warnings := s.warnings ++ [warning] }

def clearWarnings (s : CursorState) : CursorState := { s with warnings := [] }

/-- The number of the current row, zero after the last row. -/
def row (s : CursorState) : Nat := if s.done then 0 else s.position

def isBeforeFirst (s : CursorState) : Bool := s.position == 0 && !s.done

def isAfterLast (s : CursorState) : Bool := s.done

def isFirst (s : CursorState) : Bool := s.row == 1

end CursorState
end KeyedRows
