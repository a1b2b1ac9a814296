/-
# How cursors mind their closing

Each kind of cursor checks for itself whether it is closed, where it moves or tells
its metadata. What these checks amount to is the same for all kinds: only the closing
closes a cursor (`closed_after`), and a closed cursor refuses, before it asks its
stream or the client for anything (`refused`).

Key definitions: `CursorCall.needsOpen`, `MindsClosing`, `LawfulCursor`.
-/
import KeyedRows.Proofs.Cursor.States

namespace KeyedRows

open CursorM CursorCall

/-- The calls that a closed cursor refuses. -/
def CursorCall.needsOpen : CursorCall → Bool
  | next => true
  | first => true
  | metadata => true
  | findColumn _ => true
  | getObject _ => true
  | get _ _ => true
  | setFetchDirection _ => true
  | _ => false

/-- What of the calls that each kind of cursor has of its own a closed one refuses. -/
structure MindsClosing {γ : Type} [RowCursor γ] (c : γ) : Prop where
  next_closed : (RowCursor.state c).closed = true → ∀ cl,
    RowCursor.next (c, cl) = .error (.closed "cursor") (c, cl)
  metadata_closed : (RowCursor.state c).closed = true → ∀ cl,
    (RowCursor.metadata : CursorM γ ResultMetadata) (c, cl) = .error (.closed "cursor") (c, cl)

/-- A kind of cursor whose cursors all track their state and mind their closing. -/
class LawfulCursor (γ : Type) [RowCursor γ] : Prop extends TrackedCursor γ where
  minds : ∀ c : γ, MindsClosing c

theorem CursorState.closed_moved (s : CursorState) (b : Option Bool) :
    (s.moved b).closed = s.closed := by
  rcases b with _ | (_ | _) <;> rfl

theorem CursorState.closed_noted (s : CursorState) (v : Option Value) :
    (s.noted v).closed = s.closed := by
  cases v <;> rfl

theorem CursorState.closed_directed (s : CursorState) (d : FetchDirection) :
    (s.directed d).closed = s.closed := by
  unfold directed
  split_ifs <;> rfl

/-- Whatever else a call makes of the state, only the closing closes it. -/
theorem Exchange.closed_effect {γ : Type} [RowCursor γ] {x : Exchange γ} (h : x.call ≠ .close)
    (st : CursorState) : (x.effect st).closed = st.closed := by
  obtain ⟨s, k⟩ := x
  cases k with
  | next => exact st.closed_moved _
  | first => exact st.closed_moved _
  | close => exact absurd rfl h
  | getObject label => exact st.closed_noted _
  | get α label => exact st.closed_noted _
  | setFetchDirection d => exact st.closed_directed d
  | _ => rfl

/-! ### All kinds of cursor -/

namespace LawfulCursor

variable {γ : Type} [RowCursor γ] [LawfulCursor γ] {k : CursorCall} {s : γ × Client}

/-- **A closed cursor refuses** to move, to read and to tell its metadata, and
nothing has changed when it has refused. -/
theorem refused (h : (RowCursor.state s.1).closed = true) (hk : k.needsOpen = true) :
    k.run s = .error (.closed "cursor") s := by
  obtain ⟨c, cl⟩ := s
  have hminds := minds c
  cases k with
  | next => exact hminds.next_closed h cl
  | first => rw [CursorCall.run, RowCursor.first, bind_apply, RowCursor.ensureOpen_closed h]
  | metadata => exact hminds.metadata_closed h cl
  | findColumn label =>
    rw [CursorCall.run, RowCursor.findColumn_apply, hminds.metadata_closed h cl]
  | getObject label => exact RowCursor.getObject_closed h label cl
  | get α label => rw [CursorCall.run, RowCursor.get_apply, RowCursor.getObject_closed h]
  | setFetchDirection d =>
    rw [CursorCall.run, RowCursor.setFetchDirection, bind_apply, RowCursor.ensureOpen_closed h]
  | close | isLast | readValue | setFetchSize | clearWarnings | scroll | state => cases hk

/-- **Only the closing closes a cursor.** -/
theorem closed_after (hclose : k ≠ .close) (s : γ × Client) :
    (RowCursor.state (k.after s).1).closed = (RowCursor.state s.1).closed := by
  have hstate := TrackedCursor.state_after ⟨s, k⟩
  exact (congrArg CursorState.closed hstate).trans (Exchange.closed_effect hclose _)

theorem closed_of_close (s : γ × Client) :
    (RowCursor.state (CursorCall.close.after s).1).closed = true :=
  congrArg CursorState.closed (TrackedCursor.state_after ⟨s, .close⟩)

/-- A closed cursor stays closed, whatever is called. -/
theorem stays_closed (h : (RowCursor.state s.1).closed = true) (k : CursorCall) :
    (RowCursor.state (k.after s).1).closed = true := by
  by_cases hclose : k = .close
  · subst hclose
    exact closed_of_close s
  · rw [closed_after hclose]
    exact h

end LawfulCursor

/-! ### Each kind of cursor -/

instance : LawfulCursor RecordCursor where
  minds _ := ⟨RecordCursor.next_closed, RecordCursor.getMetadata_closed⟩

instance : LawfulCursor StaticCursor where
  minds _ := ⟨StaticCursor.next_closed, StaticCursor.getMetadata_closed⟩

/-- A filter minds its closing over whatever cursor. -/
instance {γ : Type} [RowCursor γ] : LawfulCursor (FilteredCursor γ) where
  minds _ := ⟨FilteredCursor.next_closed, FilteredCursor.getMetadata_closed⟩

/-! ### Cursors in a wrapping -/

/-- What minds its closing does so in a wrapping. -/
theorem Carries.minds {γ δ : Type} [RowCursor γ] [RowCursor δ] {φ : γ → δ} (h : Carries φ)
    {c : γ} (hc : MindsClosing c) : MindsClosing (φ c) where
  next_closed hclosed cl := by
    rw [h.state] at hclosed
    exact (h.next (c, cl)).trans (congrArg (mapCursor φ) (hc.next_closed hclosed cl))
  metadata_closed hclosed cl := by
    rw [h.state] at hclosed
    exact (h.metadata (c, cl)).trans (congrArg (mapCursor φ) (hc.metadata_closed hclosed cl))

instance : LawfulCursor BaseCursor where
  minds
    | .record c => BaseCursor.carries_record.minds (LawfulCursor.minds c)
    | .static c => BaseCursor.carries_static.minds (LawfulCursor.minds c)

instance : (n : Nat) → LawfulCursor (CursorStack n)
  | 0 => inferInstanceAs (LawfulCursor BaseCursor)
  | n + 1 => inferInstanceAs (LawfulCursor (FilteredCursor (CursorStack n)))

instance : LawfulCursor Cursor where
  minds c := (Cursor.carries_mk c.filters).minds (LawfulCursor.minds c.stack)

/-! ### The client of given rows -/

namespace StaticCursor

/-- The client was asked for nothing. -/
def SameClient (s t : StaticCursor × Client) : Prop := t.2 = s.2

instance : Std.Refl SameClient := ⟨fun _ => rfl⟩

instance : IsTrans _ SameClient := ⟨fun _ _ _ h k => Eq.trans k h⟩

theorem sameClient_next : Leads SameClient next := by
  refine leads_cursor.bind fun c => (leads_ofExcept _).bind fun _ => ?_
  split_ifs
  · exact leads_pure _
  · cases c.rows with
    | nil => exact Leads.bind (leads_change fun _ _ => rfl) fun _ => leads_pure _
    | cons row rows => exact Leads.bind (leads_change fun _ _ => rfl) fun _ => leads_pure _

/-- **A cursor over given rows asks the client for nothing.** -/
theorem client_of_call (k : CursorCall) (s : StaticCursor × Client) : (k.after s).2 = s.2 := by
  by_cases hclose : k = .close
  · subst hclose
    rw [CursorCall.after_eq]
    rfl
  · have hnext : Leads SameClient CursorCall.next.run := sameClient_next
    have hmetadata : Leads SameClient getMetadata :=
      leads_cursor.bind fun _ => (leads_ofExcept _).bind fun _ => leads_pure _
    have hlast : Leads SameClient isLast :=
      leads_cursor.bind fun _ => (leads_ofExcept _).bind fun _ => leads_pure _
    have hread (label : String) : Leads SameClient (CursorCall.readValue label).run :=
      leads_cursor.bind fun _ => leads_ofExcept _
    exact RowCursor.leads_of_own (R := SameClient) (refl_of SameClient) (trans_of SameClient) hclose
      (hnext.after s) (fun _ => Leads.after (k := .metadata) hmetadata s)
      (Leads.after (k := .isLast) hlast s) (fun label => (hread label).after s) fun _ _ _ => rfl

end StaticCursor

end KeyedRows
