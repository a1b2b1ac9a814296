/-
# What calls make of a cursor's state

A move to a row advances the state of a cursor, one past the last row finishes it,
a getter that reads notes what it has read, and what the other calls do to the state
they say themselves. This is the same for all kinds of cursor (`state_after`), for
each kind tracks its state in the calls that it has of its own (`TracksState`): a
filter, too, leaves its own state to its moves, whatever its test does to the cursor
under it.

Key definitions: `CursorCall.getter?`, `Exchange.read?`, `Exchange.effect`,
`TracksState`, `TrackedCursor`.
Key theorem: **`TrackedCursor.state_after`**.
-/
import KeyedRows.Proofs.Cursor.Carried
import KeyedRows.Proofs.Cursor.Closed
import KeyedRows.Proofs.Cursor.Under

namespace KeyedRows

open CursorM CursorCall

/-- The label of a getter. -/
def CursorCall.getter? : CursorCall → Option String
  | getObject label => some label
  | get _ label => some label
  | _ => none

namespace CursorState

/-- The state after a move with this answer; a failed one leaves it. -/
def moved (s : CursorState) : Option Bool → CursorState
  | some true => s.advance
  | some false => s.finish
  | none => s

/-- The state after a getter that has read this value, or none. -/
def noted (s : CursorState) : Option Value → CursorState
  | some v => s.recordRead v
  | none => s

/-- The state after a direction was asked for, which a closed cursor refuses. -/
def directed (s : CursorState) (d : FetchDirection) : CursorState :=
  if s.closed = true ∨ d = .forward then s
  else s.warn s!"fetch direction {d.name} is not supported; using Forward"

theorem finish_of_done {s : CursorState} (h : s.done = true) : s.finish = s := by
  rw [finish, ← h]

theorem close_of_closed {s : CursorState} (h : s.closed = true) : s.close = s := by
  rw [close, ← h]

end CursorState

namespace Exchange

variable {γ : Type} [RowCursor γ]

/-- The value that a getter reads, if it stands on a row where its label means
something; what the value is then converted to does not matter. -/
def read? (x : Exchange γ) : Option Value :=
  x.call.getter?.bind fun label => ((CursorCall.getObject label).answer x.before).toOption

/-- What the call makes of a state. -/
def effect (x : Exchange γ) (s : CursorState) : CursorState :=
  match x.call with
  | .next => s.moved x.moved?
  | .first => s.moved x.moved?
  | .close => s.close
  | .getObject _ => s.noted x.read?
  | @CursorCall.get _ _ _ => s.noted x.read?
  | .setFetchDirection d => s.directed d
  | .clearWarnings => s.clearWarnings
  | _ => s

/-- What was read was read on a row, under a label that means something there. -/
theorem read?_eq_some {x : Exchange γ} {v : Value} : x.read? = some v ↔
    ∃ label, x.call.getter? = some label ∧ (RowCursor.state x.before.1).ensureRow = .ok () ∧
      (CursorCall.readValue label).answer x.before = .ok v := by
  unfold read?
  rw [Option.bind_eq_some_iff]
  refine exists_congr fun label => and_congr_right fun _ => ?_
  rw [RowCursor.getObject_answer]
  cases (RowCursor.state x.before.1).ensureRow with
  | error e => simp [bind, Except.bind, Except.toOption]
  | ok u =>
    simp only [bind, Except.bind]
    cases (CursorCall.readValue label).answer x.before <;> simp [Except.toOption]

end Exchange

section

variable {γ : Type} [RowCursor γ]

/-- What the calls that each kind of cursor has of its own make of the state. -/
structure TracksState (c : γ) : Prop where
  state_withState : ∀ st, RowCursor.state (RowCursor.withState c st) = st
  next : ∀ cl, RowCursor.state (CursorCall.next.after (c, cl)).1 =
    (RowCursor.state c).moved (Exchange.mk (c, cl) .next).moved?
  close : ∀ cl, RowCursor.state (CursorCall.close.after (c, cl)).1 = (RowCursor.state c).close
  metadata : ∀ cl, RowCursor.state (CursorCall.metadata.after (c, cl)).1 = RowCursor.state c
  isLast : ∀ cl, RowCursor.state (CursorCall.isLast.after (c, cl)).1 = RowCursor.state c
  readValue : ∀ label cl,
    RowCursor.state ((CursorCall.readValue label).after (c, cl)).1 = RowCursor.state c

/-- A kind of cursor whose cursors all track their state. -/
class TrackedCursor (γ : Type) [RowCursor γ] : Prop where
  tracks : ∀ c : γ, TracksState c

end

/-! ### All calls -/

namespace TrackedCursor

variable {γ : Type} [RowCursor γ] [TrackedCursor γ]

/-- The first move makes of the state what it answers. -/
theorem state_first (s : γ × Client) : RowCursor.state (CursorCall.first.after s).1 =
    (RowCursor.state s.1).moved (Exchange.mk s .first).moved? := by
  obtain ⟨c, cl⟩ := s
  have hrefused : ∀ e, CursorCall.first.run (c, cl) = .error e (c, cl) →
      RowCursor.state (CursorCall.first.after (c, cl)).1 =
        (RowCursor.state c).moved (Exchange.mk (c, cl) .first).moved? := by
    intro e he
    rw [after_error he, Exchange.moved?_of_error (Exchange.error?_error he)]
    rfl
  cases hclosed : (RowCursor.state c).closed with
  | true =>
    refine hrefused (.closed "cursor") ?_
    rw [CursorCall.run, RowCursor.first, bind_apply, RowCursor.ensureOpen_closed hclosed]
  | false =>
    have hrun : CursorCall.first.run (c, cl) = _ := RowCursor.first_apply hclosed
    by_cases hbefore : (RowCursor.state c).isBeforeFirst = true
    · rw [if_pos hbefore] at hrun
      obtain ⟨hafter, hmoved, -⟩ := RowCursor.first_same hrun
      rw [hmoved]
      exact (congrArg (fun t => RowCursor.state t.1) hafter).trans ((tracks c).next cl)
    · rw [if_neg hbefore] at hrun
      exact hrefused _ hrun

/-- A getter makes of the state what it reads. -/
theorem state_getObject (label : String) (s : γ × Client) :
    RowCursor.state ((CursorCall.getObject label).after s).1 =
      (RowCursor.state s.1).noted ((CursorCall.getObject label).answer s).toOption := by
  have hread := (tracks s.1).readValue label s.2
  rcases RowCursor.getObject_cases label s with ⟨e, he, hafter | hafter⟩ | ⟨v, hv, hafter⟩
  · rw [hafter, he]
    rfl
  · rw [hafter, he]
    exact hread
  · rw [hafter, hv, (tracks _).state_withState]
    exact congrArg (·.recordRead v) hread

theorem state_setFetchDirection (d : FetchDirection) (s : γ × Client) :
    RowCursor.state ((CursorCall.setFetchDirection d).after s).1 =
      (RowCursor.state s.1).directed d := by
  obtain ⟨c, cl⟩ := s
  simp only [CursorCall.after, CursorCall.run, RowCursor.setFetchDirection, bind_apply,
    CursorState.directed]
  cases hclosed : (RowCursor.state c).closed with
  | true => simp [RowCursor.ensureOpen_closed hclosed]
  | false =>
    rw [RowCursor.ensureOpen_apply hclosed]
    by_cases hforward : d = .forward
    · simp [hforward]
    · simp only [ne_eq, hforward, not_false_eq_true, if_true, Bool.false_eq_true, or_self,
        if_false]
      exact (tracks c).state_withState _

/-- **What a call makes of the state follows from what it answers.** -/
theorem state_after (x : Exchange γ) :
    RowCursor.state x.after.1 = x.effect (RowCursor.state x.before.1) := by
  obtain ⟨⟨c, cl⟩, k⟩ := x
  have hown := tracks c
  cases k with
  | next => exact hown.next cl
  | first => exact state_first (c, cl)
  | close => exact hown.close cl
  | metadata => exact hown.metadata cl
  | findColumn label =>
    rw [Exchange.after, RowCursor.findColumn_after]
    exact hown.metadata cl
  | isLast => exact hown.isLast cl
  | readValue label => exact hown.readValue label cl
  | getObject label => exact state_getObject label (c, cl)
  | get α label =>
    rw [Exchange.after, RowCursor.get_after]
    exact state_getObject label (c, cl)
  | setFetchDirection d => exact state_setFetchDirection d (c, cl)
  | setFetchSize rows =>
    rw [Exchange.after, RowCursor.setFetchSize_after]
    rfl
  | clearWarnings => exact hown.state_withState _
  | scroll m => rfl
  | state => rfl

end TrackedCursor

/-! ### Each kind of cursor -/

/-- What runs leaves the state as it is. -/
def SameState {γ : Type} [RowCursor γ] (s t : γ × Client) : Prop :=
  RowCursor.state t.1 = RowCursor.state s.1

instance {γ : Type} [RowCursor γ] : Std.Refl (SameState (γ := γ)) := ⟨fun _ => rfl⟩

instance {γ : Type} [RowCursor γ] : IsTrans (γ × Client) SameState :=
  ⟨fun _ _ _ h k => Eq.trans k h⟩

namespace RecordCursor

theorem sameState_fetch : Leads SameState fetch := by
  rintro ⟨c, cl⟩
  simp only [leaves, fetch]
  cases c.replay with
  | some r => rfl
  | none =>
    simp only
    split_ifs
    · rfl
    · rcases c.stream.next with ⟨_ | (_ | r), t⟩ <;> rfl

theorem sameState_peek : Leads SameState peek := by
  refine leads_cursor.bind fun c => ?_
  cases c.replay with
  | some r => exact leads_pure _
  | none =>
    refine sameState_fetch.bind fun r => Leads.bind (leads_change ?_) fun _ => leads_pure r
    exact fun _ _ => rfl

theorem state_next (c : RecordCursor) (cl : Client) :
    (CursorCall.next.after (c, cl)).1.state =
      c.state.moved (Exchange.mk (c, cl) .next).moved? := by
  have hrun : CursorCall.next.run (c, cl) = next (c, cl) := rfl
  cases hclosed : c.state.closed with
  | true =>
    have hr := hrun.trans (next_closed hclosed cl)
    rw [after_error hr, Exchange.moved?_of_error (Exchange.error?_error hr)]
    rfl
  | false =>
    simp only [next, bind_apply, cursor_apply, CursorState.ensureOpen, hclosed,
      Bool.false_eq_true, if_false, ofExcept_ok] at hrun
    cases hdone : c.state.done with
    | true =>
      simp only [hdone, if_true, pure_apply] at hrun
      rw [after_ok hrun, Exchange.moved?_next hrun]
      exact (CursorState.finish_of_done hdone).symm
    | false =>
      simp only [hdone, Bool.false_eq_true, if_false] at hrun
      have hfetch : SameState (c, cl) (leaves fetch (c, cl)) := sameState_fetch (c, cl)
      cases hf : fetch (c, cl) with
      | error e t =>
        simp only [bind_apply, hf] at hrun
        rw [after_error hrun, Exchange.moved?_of_error (Exchange.error?_error hrun)]
        rw [leaves_error hf] at hfetch
        exact hfetch
      | ok r t =>
        rw [leaves_ok hf] at hfetch
        have hstate : t.1.state = c.state := hfetch
        cases r with
        | some r =>
          simp only [bind_apply, hf, change_apply, pure_apply, hstate] at hrun
          rw [after_ok hrun, Exchange.moved?_next hrun]
          rfl
        | none =>
          simp only [bind_apply, hf, change_apply, pure_apply, hstate] at hrun
          rw [after_ok hrun, Exchange.moved?_next hrun]
          rfl

theorem state_close (c : RecordCursor) (cl : Client) :
    (CursorCall.close.after (c, cl)).1.state = c.state.close := by
  rw [close_after_eq]
  split_ifs with hclosed
  · exact (CursorState.close_of_closed hclosed).symm
  · rfl

end RecordCursor

instance : TrackedCursor RecordCursor where
  tracks c := by
    have hmetadata : Leads SameState CursorCall.metadata.run :=
      RecordCursor.leads_getMetadata RecordCursor.sameState_peek
        (RecordCursor.leads_askFallback (fun _ _ _ => rfl) fun _ _ _ => rfl) fun _ _ _ => rfl
    have hlast : Leads SameState CursorCall.isLast.run :=
      RecordCursor.leads_isLast RecordCursor.sameState_peek
    have hread (label : String) :
        Leads (SameState (γ := RecordCursor)) (CursorCall.readValue label).run :=
      leads_cursor.bind fun _ => leads_ofExcept _
    exact
      { state_withState _ := rfl
        next := RecordCursor.state_next c
        close := RecordCursor.state_close c
        metadata cl := hmetadata.after (c, cl)
        isLast cl := hlast.after (c, cl)
        readValue label cl := (hread label).after (c, cl) }

namespace StaticCursor

theorem next_closed {c : StaticCursor} (h : c.state.closed = true) (cl : Client) :
    next (c, cl) = .error (.closed "cursor") (c, cl) := by
  simp [next, bind_apply, CursorState.ensureOpen, h]

theorem getMetadata_closed {c : StaticCursor} (h : c.state.closed = true) (cl : Client) :
    getMetadata (c, cl) = .error (.closed "cursor") (c, cl) := by
  simp only [getMetadata, bind_apply, cursor_apply, CursorState.ensureOpen, h, if_true,
    ofExcept_error]

/-- **A move of an open cursor** takes the first of the rows that are left. -/
theorem next_cases {c : StaticCursor} (h : c.state.closed = false) (cl : Client) :
    (c.state.done = true ∧ next (c, cl) = .ok false (c, cl)) ∨
    (c.state.done = false ∧ ∃ row rows, c.rows = row :: rows ∧ next (c, cl) =
      .ok true ({ c with rows, current := some row, state := c.state.advance }, cl)) ∨
    (c.state.done = false ∧ c.rows = [] ∧ next (c, cl) =
      .ok false ({ c with current := none, state := c.state.finish }, cl)) := by
  obtain ⟨rows, metadata, current, state⟩ := c
  have hopen : state.closed = false := h
  unfold next
  simp only [bind_apply, cursor_apply, CursorState.ensureOpen, hopen, Bool.false_eq_true, if_false,
    ofExcept_ok]
  cases state.done with
  | true => exact .inl ⟨rfl, rfl⟩
  | false =>
    cases rows with
    | nil => exact .inr (.inr ⟨rfl, rfl, rfl⟩)
    | cons row rows => exact .inr (.inl ⟨rfl, row, rows, rfl, rfl⟩)

/-- A move to a row takes it from the rows that are left. -/
theorem taken_of_next {s t : StaticCursor × Client} (h : next s = .ok true t) :
    ∃ row, s.1.rows = row :: t.1.rows ∧ t.1.current = some row := by
  obtain ⟨c, cl⟩ := s
  cases hclosed : c.state.closed with
  | true =>
    rw [next_closed hclosed] at h
    cases h
  | false =>
    rcases next_cases hclosed cl with ⟨-, hn⟩ | ⟨-, row, rows, hrows, hn⟩ | ⟨-, -, hn⟩ <;>
      rw [hn] at h <;> cases h
    exact ⟨row, hrows, rfl⟩

theorem state_next (c : StaticCursor) (cl : Client) :
    (CursorCall.next.after (c, cl)).1.state =
      c.state.moved (Exchange.mk (c, cl) .next).moved? := by
  have hrun : CursorCall.next.run (c, cl) = next (c, cl) := rfl
  cases hclosed : c.state.closed with
  | true =>
    have hr := hrun.trans (next_closed hclosed cl)
    rw [after_error hr, Exchange.moved?_of_error (Exchange.error?_error hr)]
    rfl
  | false =>
    rcases next_cases hclosed cl with ⟨hdone, hn⟩ | ⟨-, row, rows, -, hn⟩ | ⟨-, -, hn⟩
    · rw [after_ok (hrun.trans hn), Exchange.moved?_next (hrun.trans hn)]
      exact (CursorState.finish_of_done hdone).symm
    · rw [after_ok (hrun.trans hn), Exchange.moved?_next (hrun.trans hn)]
      rfl
    · rw [after_ok (hrun.trans hn), Exchange.moved?_next (hrun.trans hn)]
      rfl

theorem sameState_getMetadata : Leads SameState getMetadata :=
  leads_cursor.bind fun _ => (leads_ofExcept _).bind fun _ => leads_pure _

theorem sameState_isLast : Leads SameState isLast :=
  leads_cursor.bind fun _ => (leads_ofExcept _).bind fun _ => leads_pure _

theorem state_close (c : StaticCursor) (cl : Client) :
    (CursorCall.close.after (c, cl)).1.state = c.state.close := by
  have hrun : CursorCall.close.run (c, cl) = close (c, cl) := rfl
  rw [CursorCall.after_eq, leaves, hrun, close, change_apply]
  by_cases hclosed : c.state.closed = true
  · rw [if_pos hclosed]
    exact (CursorState.close_of_closed hclosed).symm
  · rw [if_neg hclosed]

end StaticCursor

instance : TrackedCursor StaticCursor where
  tracks c := by
    have hmetadata : Leads SameState CursorCall.metadata.run := StaticCursor.sameState_getMetadata
    have hlast : Leads SameState CursorCall.isLast.run := StaticCursor.sameState_isLast
    have hread (label : String) :
        Leads (SameState (γ := StaticCursor)) (CursorCall.readValue label).run :=
      leads_cursor.bind fun _ => leads_ofExcept _
    exact
      { state_withState _ := rfl
        next := StaticCursor.state_next c
        close := StaticCursor.state_close c
        metadata cl := hmetadata.after (c, cl)
        isLast cl := hlast.after (c, cl)
        readValue label cl := (hread label).after (c, cl) }

namespace FilteredCursor

variable {γ : Type} [RowCursor γ]

/-- A filter moves its own state, and only when it answers. -/
theorem state_next (f : FilteredCursor γ) (cl : Client) :
    (CursorCall.next.after (f, cl)).1.state =
      f.state.moved (Exchange.mk (f, cl) .next).moved? := by
  have hrun : CursorCall.next.run (f, cl) = next (f, cl) := rfl
  cases hclosed : f.state.closed with
  | true =>
    have hr := hrun.trans (next_closed hclosed cl)
    rw [after_error hr, Exchange.moved?_of_error (Exchange.error?_error hr)]
    rfl
  | false =>
    cases hdone : f.state.done with
    | true =>
      have hr := hrun.trans (next_of_done hclosed hdone)
      rw [after_ok hr, Exchange.moved?_next hr]
      exact (CursorState.finish_of_done hdone).symm
    | false =>
      have hr := hrun.trans (next_apply hclosed hdone)
      cases hseek : seek f.test (RowCursor.remaining f.inner + 1) (f.inner, cl) with
      | ok b t =>
        rw [hseek] at hr
        cases b <;>
        · rw [after_ok hr, Exchange.moved?_next hr]
          rfl
      | error e t =>
        rw [hseek] at hr
        rw [after_error hr, Exchange.moved?_of_error (Exchange.error?_error hr)]
        rfl

theorem state_close (f : FilteredCursor γ) (cl : Client) :
    (CursorCall.close.after (f, cl)).1.state = f.state.close := by
  have hrun : CursorCall.close.run (f, cl) = close (f, cl) := rfl
  cases hclosed : f.state.closed with
  | true =>
    rw [after_ok (hrun.trans (close_closed hclosed cl))]
    exact (CursorState.close_of_closed hclosed).symm
  | false =>
    rw [CursorCall.after_eq, leaves, hrun.trans (close_apply hclosed cl)]
    exact state_onInner CursorCall.close.run ({ f with state := f.state.close }, cl)

theorem state_metadata (f : FilteredCursor γ) (cl : Client) :
    (CursorCall.metadata.after (f, cl)).1.state = f.state := by
  have hrun : CursorCall.metadata.run (f, cl) = getMetadata (f, cl) := rfl
  cases hclosed : f.state.closed with
  | true => rw [after_error (hrun.trans (getMetadata_closed hclosed cl))]
  | false =>
    rw [CursorCall.after_eq, leaves, hrun.trans (getMetadata_apply hclosed cl)]
    exact state_onInner CursorCall.metadata.run (f, cl)

end FilteredCursor

/-- A filter tracks its state over whatever cursor. -/
instance {γ : Type} [RowCursor γ] : TrackedCursor (FilteredCursor γ) where
  tracks f :=
    { state_withState _ := rfl
      next := FilteredCursor.state_next f
      close := FilteredCursor.state_close f
      metadata := FilteredCursor.state_metadata f
      isLast _ := rfl
      readValue label cl := by
        rw [CursorCall.after_eq]
        exact FilteredCursor.state_onInner (CursorCall.getObject label).run (f, cl) }

/-! ### Cursors in a wrapping -/

/-- What tracks its state does so in a wrapping. -/
theorem Carries.tracks {γ δ : Type} [RowCursor γ] [RowCursor δ] {φ : γ → δ} (h : Carries φ)
    {c : γ} (hc : TracksState c) : TracksState (φ c) where
  state_withState st := by rw [h.withState, h.state, hc.state_withState]
  next cl := by
    have hmoved : (Exchange.mk (φ c, cl) .next).moved? = (Exchange.mk (c, cl) .next).moved? :=
      congrArg (CursorCall.next.moved? ·) (h.answer .next (c, cl))
    rw [hmoved, h.after .next (c, cl), h.state, h.state, hc.next]
  close cl := by rw [h.after .close (c, cl), h.state, h.state, hc.close]
  metadata cl := by rw [h.after .metadata (c, cl), h.state, h.state, hc.metadata]
  isLast cl := by rw [h.after .isLast (c, cl), h.state, h.state, hc.isLast]
  readValue label cl := by
    rw [h.after (.readValue label) (c, cl), h.state, h.state, hc.readValue]

instance : TrackedCursor BaseCursor where
  tracks
    | .record c => BaseCursor.carries_record.tracks (TrackedCursor.tracks c)
    | .static c => BaseCursor.carries_static.tracks (TrackedCursor.tracks c)

instance : (n : Nat) → TrackedCursor (CursorStack n)
  | 0 => inferInstanceAs (TrackedCursor BaseCursor)
  | n + 1 => inferInstanceAs (TrackedCursor (FilteredCursor (CursorStack n)))

instance : TrackedCursor Cursor where
  tracks c := (Cursor.carries_mk c.filters).tracks (TrackedCursor.tracks c.stack)

end KeyedRows
