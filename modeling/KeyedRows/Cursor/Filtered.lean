/-
# Filtered cursors

A test of a row is a program that looks at the row and then accepts it, refuses
it or fails. It is handed the cursor that stands on the row, and may make any call
of it on the way, even one that moves or closes it. A filtered cursor moves over
another cursor and passes over the rows that its test refuses. It counts the rows
that it accepts.

Key definitions: `RowCall`, `RowTest`, `RowTest.run`, `FilteredCursor`, `seek`.
-/
import KeyedRows.Cursor.Basic

namespace KeyedRows

/-- The calls of a cursor that do more than look at the row and its metadata. -/
inductive RowCall where
  | next
  | first
  | close
  | isLast
  | readValue (label : String)
  | setFetchDirection (d : FetchDirection)
  | clearWarnings
  | state

namespace RowCall

/-- What such a call is answered with. -/
abbrev Result : RowCall → Type
  | next => Bool
  | first => Bool
  | close => Unit
  | isLast => Bool
  | readValue _ => Value
  | setFetchDirection _ => Unit
  | clearWarnings => Unit
  | state => CursorState

def run {γ : Type} [RowCursor γ] : (k : RowCall) → CursorM γ k.Result
  | next => RowCursor.next
  | first => RowCursor.first
  | close => RowCursor.close
  | isLast => RowCursor.isLast
  | readValue label => RowCursor.readValue label
  | setFetchDirection d => RowCursor.setFetchDirection d
  | clearWarnings => RowCursor.clearWarnings
  | state => RowCursor.getState

end RowCall

/-- What a test does next: answer, or ask for the value under a label, for the
number of the row or for the metadata, or make another call, and go on with what it
is told. All that a cursor can be called with comes down to these. -/
inductive RowTest where
  | answer (accepted : Except Error Bool)
  | object (label : String) (next : Except Error Value → RowTest)
  | row (next : Nat → RowTest)
  | metadata (next : Except Error ResultMetadata → RowTest)
  | call (k : RowCall) (next : Except Error k.Result → RowTest)

/-- The outcome of a call as a value; the call's changes stay. -/
def CursorM.attempt {γ α : Type} (op : CursorM γ α) : CursorM γ (Except Error α) := fun s =>
  match op s with
  | .ok a s => .ok (.ok a) s
  | .error e s => .ok (.error e) s

namespace RowTest

/-- The test of the current row of a cursor. -/
def run {γ : Type} [RowCursor γ] : RowTest → CursorM γ Bool
  | answer accepted => ofExcept accepted
  | object label next => do (next (← (RowCursor.getObject label).attempt)).run
  | row next => do (next (← RowCursor.getState (γ := γ)).row).run
  | metadata next => do (next (← CursorM.attempt RowCursor.metadata)).run
  | call k next => do (next (← CursorM.attempt k.run)).run

/-- The value under a label, and then a test of it; a label that cannot be
read fails the test. -/
def value (label : String) (next : Value → RowTest) : RowTest :=
  .object label fun
    | .ok v => next v
    | .error e => .answer (.error e)

/-- A test, and then another one that knows its answer. -/
def andThen : RowTest → (Bool → RowTest) → RowTest
  | answer (.ok b), k => k b
  | answer (.error e), _ => .answer (.error e)
  | object label next, k => .object label fun r => (next r).andThen k
  | row next, k => .row fun n => (next n).andThen k
  | metadata next, k => .metadata fun m => (next m).andThen k
  | call c next, k => .call c fun r => (next r).andThen k

/-- Always this answer. -/
def const (b : Bool) : RowTest := .answer (.ok b)

/-- The opposite answer. -/
def negate (t : RowTest) : RowTest := t.andThen fun b => const !b

/-- All tests accept; those after the first refusal are not run. -/
def all : List RowTest → RowTest
  | [] => const true
  | t :: ts => t.andThen fun b => if b then all ts else const false

/-- Some test accepts; those after the first acceptance are not run. -/
def any : List RowTest → RowTest
  | [] => const false
  | t :: ts => t.andThen fun b => if b then const true else any ts

end RowTest

structure FilteredCursor (γ : Type) where
  inner : γ
  test : RowTest
  state : CursorState := {}

namespace FilteredCursor

variable {γ : Type} [RowCursor γ]

/-- A call on the cursor under the filter. -/
def onInner {α : Type} (op : CursorM γ α) : CursorM (FilteredCursor γ) α :=
  CursorM.onPart inner (fun c i => { c with inner := i }) op

/-- Moves to the first row that the test accepts, if there is one among so
many moves. -/
def seek (test : RowTest) : Nat → CursorM γ Bool
  | 0 => return false
  | moves + 1 => do
    if ← RowCursor.next then
      if ← test.run then return true
      seek test moves
    else return false

def next : CursorM (FilteredCursor γ) Bool := do
  let c ← CursorM.cursor
  ofExcept c.state.ensureOpen
  if c.state.done then return false
  if ← onInner (seek c.test (RowCursor.remaining c.inner + 1)) then
    CursorM.change fun c => { c with state := c.state.advance }
    return true
  CursorM.change fun c => { c with state := c.state.finish }
  return false

/-- The first closing closes the cursor under the filter. -/
def close : CursorM (FilteredCursor γ) Unit := do
  let c ← CursorM.cursor
  if !c.state.closed then
    CursorM.change fun c => { c with state := c.state.close }
    onInner RowCursor.close

def getMetadata : CursorM (FilteredCursor γ) ResultMetadata := do
  let c ← CursorM.cursor
  ofExcept c.state.ensureOpen
  onInner RowCursor.metadata

/-- Whether a row is the last is not known: the rows after it would have to
be tested. -/
def isLast : CursorM (FilteredCursor γ) Bool := throw (.forwardOnly "isLast")

instance : RowCursor (FilteredCursor γ) where
  state := FilteredCursor.state
  withState c s := { c with state := s }
  remaining c := RowCursor.remaining c.inner
  next := next
  close := close
  metadata := getMetadata
  readValue label := onInner (RowCursor.getObject label)
  isLast := isLast

end FilteredCursor
end KeyedRows
