/-
# Closed record cursors

A closed cursor stays closed (`closed_after`). So whatever was done to a cursor,
it is closed or in the state that calls on an open cursor leave
(`settled_of_calls`).

Key definitions: `Settled`.
-/
import KeyedRows.Proofs.Cursor.Changes
import KeyedRows.Proofs.Cursor.Delivery

namespace KeyedRows
namespace RecordCursor

open CursorM CursorCall

/-- What holds of a cursor between two calls. -/
def Settled (c : RecordCursor) : Prop := WellPlaced c ∨ c.state.closed = true

variable {c : RecordCursor} {cl : Client}

/-- The first closing closes the stream, a later one does nothing. -/
theorem close_after_eq (c : RecordCursor) (cl : Client) :
    CursorCall.close.after (c, cl) = if c.state.closed then (c, cl) else
      ({ c with
          state := c.state.close
          stream := c.stream.release
          current := none
          replay := none }, cl.noteClosing c.stream) := by
  have hrun : CursorCall.close.run (c, cl) = close (c, cl) := rfl
  rw [CursorCall.after_eq, leaves, hrun, close]
  split_ifs <;> rfl

theorem close_after (c : RecordCursor) (cl : Client) :
    (CursorCall.close.after (c, cl)).1.state.closed = true := by
  rw [close_after_eq]
  split_ifs with h
  · exact h
  · rfl

theorem close_columns (c : RecordCursor) (cl : Client) :
    (CursorCall.close.after (c, cl)).1.columns = c.columns ∧
      (CursorCall.close.after (c, cl)).1.settings = c.settings := by
  rw [close_after_eq]
  split_ifs <;> exact ⟨rfl, rfl⟩

/-- A closed cursor stays closed. -/
theorem closed_after (h : c.state.closed = true) (k : CursorCall) :
    (k.after (c, cl)).1.state.closed = true := by
  by_cases hclose : k = .close
  · subst hclose
    exact close_after c cl
  · rw [(stirred_of_call hclose (c, cl)).1.closed]
    exact h

/-- The place of an open cursor is the place of an open one. -/
theorem SamePlace.placed {d : RecordCursor} (hp : SamePlace c d) (h : WellPlaced c)
    (hd : Settled d) : WellPlaced d := by
  rcases hd with hd | hclosed
  · exact hd
  · rw [hp.closed, h.isOpen] at hclosed
    cases hclosed

theorem Settled.after (h : Settled c) (k : CursorCall) : Settled (k.after (c, cl)).1 := by
  rcases h with h | h
  · by_cases hk : k = .close
    · subst hk
      exact .inr (close_after c cl)
    · exact .inl (call_step h hk).placed
  · exact .inr (closed_after h k)

/-- Whatever was called, a cursor is settled. -/
theorem settled_of_calls (h : Settled c) (calls : List CursorCall) :
    Settled (afterAll (c, cl) calls).1 :=
  (exchanges_keep (fun _ k hs (_ : True) => Settled.after hs k) calls (c, cl) h
    fun _ _ => trivial).1

end RecordCursor
end KeyedRows
