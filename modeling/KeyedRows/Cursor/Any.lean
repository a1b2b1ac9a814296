/-
# Cursors of any kind

A cursor over records or over given rows, with any number of filters above
it. It is a cursor itself: every call goes to the outermost filter. A cursor
that is given up releases what it holds.

Key definitions: `BaseCursor`, `CursorStack`, `Cursor`, `Cursor.filtered`,
`Cursor.drop`.
-/
import KeyedRows.Cursor.Filtered
import KeyedRows.Cursor.Record
import KeyedRows.Cursor.Static

namespace KeyedRows

/-- A cursor without filters. -/
inductive BaseCursor where
  | record (c : RecordCursor)
  | static (c : StaticCursor)

namespace BaseCursor

variable {α : Type}

/-- The call of the kind at hand. -/
def dispatch (onRecord : CursorM RecordCursor α) (onStatic : CursorM StaticCursor α) :
    CursorM BaseCursor α
  | (record c, cl) =>
    match onRecord (c, cl) with
    | .ok a (c, cl) => .ok a (record c, cl)
    | .error e (c, cl) => .error e (record c, cl)
  | (static c, cl) =>
    match onStatic (c, cl) with
    | .ok a (c, cl) => .ok a (static c, cl)
    | .error e (c, cl) => .error e (static c, cl)

instance : RowCursor BaseCursor where
  state
    | record c => c.state
    | static c => c.state
  withState
    | record c, s => record (RowCursor.withState c s)
    | static c, s => static (RowCursor.withState c s)
  remaining
    | record c => RowCursor.remaining c
    | static c => RowCursor.remaining c
  next := dispatch RowCursor.next RowCursor.next
  close := dispatch RowCursor.close RowCursor.close
  metadata := dispatch RowCursor.metadata RowCursor.metadata
  readValue label := dispatch (RowCursor.readValue label) (RowCursor.readValue label)
  isLast := dispatch RowCursor.isLast RowCursor.isLast

/-- A cursor that is given up: its stream is closed, given rows need nothing. -/
def drop : CursorM BaseCursor Unit := dispatch RowCursor.close (pure ())

end BaseCursor

/-- A base cursor under so many filters. -/
def CursorStack : Nat → Type
  | 0 => BaseCursor
  | n + 1 => FilteredCursor (CursorStack n)

/-- Every stack is a cursor. -/
instance CursorStack.rowCursor : (n : Nat) → RowCursor (CursorStack n)
  | 0 => inferInstanceAs (RowCursor BaseCursor)
  | n + 1 => @FilteredCursor.instRowCursor (CursorStack n) (CursorStack.rowCursor n)

/-- Filters that are given up give up the cursor under them. -/
def CursorStack.drop : (n : Nat) → CursorM (CursorStack n) Unit
  | 0 => BaseCursor.drop
  | n + 1 => FilteredCursor.onInner (CursorStack.drop n)

structure Cursor where
  filters : Nat
  stack : CursorStack filters

namespace Cursor

def ofRecord (c : RecordCursor) : Cursor := ⟨0, BaseCursor.record c⟩

def ofStatic (c : StaticCursor) : Cursor := ⟨0, BaseCursor.static c⟩

/-- The cursor under one more filter. -/
def filtered (c : Cursor) (test : RowTest) : Cursor :=
  ⟨c.filters + 1, (FilteredCursor.mk c.stack test {} : FilteredCursor (CursorStack c.filters))⟩

/-- A call on the outermost filter. -/
def onStack {α : Type} (op : (n : Nat) → CursorM (CursorStack n) α) : CursorM Cursor α
  | (⟨n, stack⟩, cl) =>
    match op n (stack, cl) with
    | .ok a (stack, cl) => .ok a (⟨n, stack⟩, cl)
    | .error e (stack, cl) => .error e (⟨n, stack⟩, cl)

/-- A cursor that is given up, closed before or not. -/
def drop : CursorM Cursor Unit := onStack CursorStack.drop

instance : RowCursor Cursor where
  state c := RowCursor.state c.stack
  withState c s := ⟨c.filters, RowCursor.withState c.stack s⟩
  remaining c := RowCursor.remaining c.stack
  next := onStack fun _ => RowCursor.next
  close := onStack fun _ => RowCursor.close
  metadata := onStack fun _ => RowCursor.metadata
  readValue label := onStack fun _ => RowCursor.readValue label
  isLast := onStack fun _ => RowCursor.isLast

end Cursor
end KeyedRows
