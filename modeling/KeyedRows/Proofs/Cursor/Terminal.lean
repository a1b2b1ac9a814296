/-
# Closed for good

Once a cursor was told to close it stays closed: every later move, reading or
question for metadata is refused, and it reaches neither the stream nor the
client. The stream under the filters is told to close with the first closing or,
if there was none, when the cursor is given up, and never again: how often it was
told and how often it has still to be told make the same sum after every call
(`BaseCursor.account_of_call`).

Key definitions: `Cursor.closings`, `Cursor.owed`.
Key theorem: **`Cursor.closed_for_good`**.
-/
import KeyedRows.Proofs.Cursor.Stack

namespace KeyedRows

open CursorM CursorCall

/-! ### The account of a stream -/

namespace BaseCursor

/-- How often the stream was told to close. -/
def closings : BaseCursor → Nat
  | record c => c.stream.closings
  | static _ => 0

/-- How often the stream has still to be told to close: once while the cursor is
open. -/
def owed : BaseCursor → Nat
  | record c => if c.state.closed then 0 else 1
  | static _ => 0

/-- **Every call leaves the account of the stream as it is.** -/
theorem account_of_call (s : BaseCursor × Client) (k : CursorCall) :
    (k.after s).1.closings + (k.after s).1.owed = s.1.closings + s.1.owed := by
  obtain ⟨c | c, cl⟩ := s
  · rw [carries_record.after k (c, cl)]
    by_cases hclose : k = .close
    · subst hclose
      rw [RecordCursor.close_after_eq]
      split_ifs with hclosed
      · rfl
      -- the one closing that was owed has been made
      · simp only [closings, owed, RecordStream.release, CursorState.close, hclosed,
          Bool.false_eq_true, if_true, if_false, Nat.add_zero]
    · have hstirred := (RecordCursor.stirred_of_call hclose (c, cl)).1
      simp only [closings, owed, hstirred.closings, hstirred.closed]
  · rw [carries_static.after k (c, cl)]
    rfl

/-- A cursor over a stream that is given up is closed. -/
theorem leaves_drop_record (c : RecordCursor) (cl : Client) :
    leaves drop (record c, cl) = CursorCall.close.after (record c, cl) := by
  rw [CursorCall.after_eq]
  rfl

/-- A cursor that is given up owes nothing. -/
theorem owed_of_drop (s : BaseCursor × Client) :
    (leaves drop s).1.owed = 0 ∧
      (leaves drop s).1.closings = s.1.closings + s.1.owed := by
  obtain ⟨c | c, cl⟩ := s
  · have haccount := account_of_call (record c, cl) .close
    have hclosed := LawfulCursor.closed_of_close (γ := RecordCursor) (c, cl)
    have howed : (CursorCall.close.after (record c, cl)).1.owed = 0 := by
      rw [carries_record.after .close (c, cl)]
      exact if_pos hclosed
    rw [howed] at haccount
    rw [leaves_drop_record]
    exact ⟨howed, haccount⟩
  · exact ⟨rfl, rfl⟩

end BaseCursor

namespace Cursor

/-- How often the stream under the filters was told to close. -/
def closings (c : Cursor) : Nat := c.base.closings

/-- How often it has still to be told. -/
def owed (c : Cursor) : Nat := c.base.owed

/-- A new cursor over a stream owes one closing, also under a filter. -/
example (home : SetAddress) (columns : List Column) (settings : Settings) (stream : RecordStream)
    (test : RowTest) :
    ((Cursor.ofRecord { home, columns, settings, stream }).filtered test).owed = 1 := rfl

theorem account_of_calls (s : Cursor × Client) (calls : List CursorCall) :
    (afterAll s calls).1.closings + (afterAll s calls).1.owed = s.1.closings + s.1.owed := by
  exact bottom_of_calls (P := fun t => t.1.closings + t.1.owed = s.1.closings + s.1.owed)
    (fun t k ht => (BaseCursor.account_of_call t k).trans ht) rfl calls

/-- **Closed for good.** Once a cursor was told to close, whatever state it was
in, it stays closed, and refuses to move, to read and to tell its metadata before
anything is asked of its stream or of the client. Whatever is called, the stream
under its filters is never told to close more often than once, and when the
cursor is given up it was told once. -/
theorem closed_for_good (c : Cursor) (cl : Client) (calls later : List CursorCall) :
    (∀ x ∈ exchanges (CursorCall.close.after (afterAll (c, cl) calls)) later,
      (RowCursor.state x.before.1).closed = true ∧
        (x.call.needsOpen = true →
          x.answer = .error (.closed "cursor") ∧ x.after = x.before)) ∧
    (afterAll (c, cl) calls).1.closings + (afterAll (c, cl) calls).1.owed =
      c.closings + c.owed ∧
    (leaves drop (afterAll (c, cl) calls)).1.closings = c.closings + c.owed := by
  refine ⟨fun x hx => ?_, account_of_calls (c, cl) calls, ?_⟩
  · have hclosed := LawfulCursor.closed_of_close (afterAll (c, cl) calls)
    obtain ⟨-, hall⟩ := exchanges_keep
      (I := fun s : Cursor × Client => (RowCursor.state s.1).closed = true)
      (fun s k hs (_ : True) => LawfulCursor.stays_closed hs k) later _ hclosed fun _ _ => trivial
    refine ⟨(hall x hx).1, fun hneeds => ?_⟩
    have hrun := LawfulCursor.refused (hall x hx).1 hneeds
    exact ⟨answer_error hrun, after_error hrun⟩
  · have hbottom := congrArg (fun s => s.1.closings) (bottom_drop (afterAll (c, cl) calls))
    have hdrop := (BaseCursor.owed_of_drop (bottom (afterAll (c, cl) calls))).2
    exact (hbottom.trans hdrop).trans (account_of_calls (c, cl) calls)

end Cursor

end KeyedRows
