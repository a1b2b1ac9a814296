/-
# Rows under a filter

A filter that stands on a row stands above a cursor that is on a row, if its test only
looks, though maybe not on the row that the filter has accepted: a move that fails may
leave the cursor under it on a row that was refused (`FilteredCursor.Rests.after`). A
cursor is only off its rows before it has moved and after a move that has found none,
and then the filter is so, too. So on a row a getter reads through all filters
(`Cursor.OnRows.getObject`). A test that moves or closes the cursor may leave it off
its rows, and then a getter is refused (`Cursor.getObject_cases`).

Key definitions: `FilteredCursor.Rests`, `CursorStack.Rests`, `CursorStack.OnRows`.
Key theorems: **`Cursor.rests_of_call`**, **`Cursor.onRows_of_calls`**.
-/
import KeyedRows.Proofs.Cursor.Positions
import KeyedRows.Proofs.Cursor.Stack

namespace KeyedRows

open CursorM CursorCall

/-! ### On a row and off it -/

section

variable {γ : Type} [RowCursor γ]

/-- Whether a state is on a row after a call is told by the call's move, if it made
one. -/
theorem Exchange.onRow_effect (x : Exchange γ) (st : CursorState) :
    (x.effect st).onRow = match x.moved? with
      | some true => !st.done
      | some false => false
      | none => st.onRow := by
  have hposition := x.position_effect st
  have hdone := x.done_effect st
  rw [CursorState.onRow, hposition, hdone]
  rcases x.moved? with _ | (_ | _) <;> simp [CursorState.onRow]

/-- The state of the cursor is on a row. -/
def OnRowState (c : γ) : Prop := (RowCursor.state c).onRow = true

section

variable [TrackedCursor γ]

/-- A call that makes no move leaves a cursor on its row, or off it. -/
theorem TrackedCursor.onRow_of_unmoved {s : γ × Client} {k : CursorCall}
    (h : (Exchange.mk s k).moved? = none) : OnRowState (k.after s).1 ↔ OnRowState s.1 := by
  have hstate := congrArg CursorState.onRow (TrackedCursor.state_after ⟨s, k⟩)
  rw [Exchange.onRow_effect, h] at hstate
  exact Eq.congr_left hstate

theorem TrackedCursor.onRow_of_quiet {s : γ × Client} {k : CursorCall} (hnext : k ≠ .next)
    (hfirst : k ≠ .first) : OnRowState (k.after s).1 ↔ OnRowState s.1 :=
  onRow_of_unmoved (CursorCall.moved?_of_stays hnext hfirst _)

/-- Calls of which none moves leave a cursor on its row, or off it. -/
theorem TrackedCursor.onRow_of_quiet_calls : ∀ {ks : List CursorCall} {s : γ × Client},
    (∀ k ∈ ks, k ≠ .next ∧ k ≠ .first) → (OnRowState (afterAll s ks).1 ↔ OnRowState s.1)
  | [], _, _ => Iff.rfl
  | k :: ks, s, h => by
    obtain ⟨⟨hnext, hfirst⟩, hrest⟩ := List.forall_mem_cons.mp h
    rw [afterAll_cons, onRow_of_quiet_calls hrest]
    exact onRow_of_quiet hnext hfirst

theorem TrackedCursor.onRow_of_failed {s : γ × Client} {k : CursorCall} {e : Error}
    (h : k.answer s = .error e) : OnRowState (k.after s).1 ↔ OnRowState s.1 :=
  onRow_of_unmoved (Exchange.moved?_of_error (Exchange.error?_eq_some.mpr h))

end

/-- **The state tells whether a cursor is on a row.** -/
theorem tellsRow_state [LawfulCursor γ] [StoppingCursor γ] :
    TellsRow (fun _ => True) (OnRowState : γ → Prop) where
  keeps _ _ _ := trivial
  moved s _ hmoved := by
    have hstate := congrArg CursorState.onRow (TrackedCursor.state_after ⟨s, .next⟩)
    have hyes : (Exchange.mk s .next).moved? = some true := by
      rw [Exchange.moved?, Exchange.answer, hmoved]
      rfl
    have hopen : (RowCursor.state s.1).closed = false := by
      by_contra hclosed
      rw [Bool.not_eq_false] at hclosed
      cases (answer_error (LawfulCursor.refused (k := .next) hclosed rfl)).symm.trans hmoved
    have hmore : (RowCursor.state s.1).done = false := by
      by_contra hdone
      rw [Bool.not_eq_false] at hdone
      cases (answer_ok (k := .next) (StoppingCursor.stops s.1 hopen hdone s.2)).symm.trans hmoved
    rw [Exchange.onRow_effect, hyes, hmore] at hstate
    exact hstate
  getObject s label hs := (TrackedCursor.onRow_of_quiet (by simp) (by simp)).mpr hs
  metadata s hs := (TrackedCursor.onRow_of_quiet (by simp) (by simp)).mpr hs

end

/-! ### One filter -/

namespace FilteredCursor

variable {γ : Type} [RowCursor γ]

/-- A call that is no move reaches the cursor under the filter in calls that are none
either. -/
theorem quiet_passed {k : CursorCall} (hnext : k ≠ .next) (hfirst : k ≠ .first)
    (s : FilteredCursor γ × Client) : ∀ k' ∈ passed s k, k' ≠ .next ∧ k' ≠ .first := by
  have hasked : ∀ k' ∈ (if s.1.state.closed then [] else [CursorCall.metadata]),
      k' ≠ .next ∧ k' ≠ .first := by
    split_ifs <;> simp
  have hread (label : String) : ∀ k' ∈ readCalls label s, k' ≠ .next ∧ k' ≠ .first := by
    unfold readCalls
    cases s.1.state.ensureRow <;> simp
  cases k with
  | next => exact absurd rfl hnext
  | first => exact absurd rfl hfirst
  | close =>
    rw [passed]
    split_ifs <;> simp
  | metadata => exact hasked
  | findColumn label => exact hasked
  | readValue label => simp [passed]
  | getObject label => exact hread label
  | get α label => exact hread label
  | setFetchDirection | setFetchSize | isLast | clearWarnings | scroll | state => simp [passed]

/-- Where the filter is on a row, the cursor under it is on one. -/
def Rests (f : FilteredCursor γ) : Prop := OnRowState f → OnRowState f.inner

variable [LawfulCursor γ] [StoppingCursor γ]

/-- Looking for an accepted row, a cursor that stood on a row stands on one, if the
looking fails: only what finds no further row leaves the rows. -/
theorem onRow_of_seek_failed {test : RowTest} (hlooks : test.Looks) {e : Error} {t : γ × Client} :
    ∀ (moves : Nat) (s : γ × Client), OnRowState s.1 → seek test moves s = .error e t →
      OnRowState t.1
  | 0, _, _, ht => by cases ht
  | moves + 1, s, hs, ht => by
    have hmoved := tellsRow_state.moved s trivial
    have hstill : ∀ e', CursorCall.next.answer s = .error e' →
        OnRowState (CursorCall.next.after s).1 :=
      fun e' he => (TrackedCursor.onRow_of_failed he).mpr hs
    rw [seek_succ] at ht
    cases hn : (CursorCall.next.run s : EStateM.Result Error (γ × Client) Bool) with
    | error e' u =>
      rw [answer_error hn, after_error hn] at hstill
      rw [hn] at ht
      cases ht
      exact hstill e rfl
    | ok b u =>
      rw [answer_ok hn, after_ok hn] at hmoved
      rw [hn] at ht
      cases b with
      | false => cases ht
      | true =>
        -- the test leaves the cursor on the row that it looks at
        have htested := (RowTest.driven_of_looks tellsRow_state hlooks u (hmoved rfl)).2
        rw [← RowTest.leaves_run] at htested
        simp only at ht
        cases hr : test.run u with
        | error e' v =>
          rw [hr] at ht
          rw [leaves_error hr] at htested
          cases ht
          exact htested
        | ok accepted v =>
          rw [hr] at ht
          rw [leaves_ok hr] at htested
          cases accepted with
          | true => cases ht
          | false => exact onRow_of_seek_failed hlooks moves v htested ht

theorem Rests.next {s : FilteredCursor γ × Client} (hlooks : s.1.test.Looks) (h : Rests s.1) :
    Rests (CursorCall.next.after s).1 := by
  obtain ⟨f, cl⟩ := s
  have hrun : CursorCall.next.run (f, cl) = FilteredCursor.next (f, cl) := rfl
  cases hclosed : f.state.closed with
  | true =>
    rw [after_error (hrun.trans (next_closed hclosed cl))]
    exact h
  | false =>
    cases hdone : f.state.done with
    | true =>
      rw [after_ok (hrun.trans (next_of_done hclosed hdone))]
      exact h
    | false =>
      have hr := hrun.trans (next_apply hclosed hdone)
      have hfound := (driven_of_seek (γ := γ) tellsRow_state hlooks
        (RowCursor.remaining f.inner + 1) (f.inner, cl) trivial).2
      cases hseek : seek f.test (RowCursor.remaining f.inner + 1) (f.inner, cl) with
      | ok b t =>
        rw [hseek] at hr
        cases b with
        | true =>
          rw [after_ok hr]
          exact fun _ => hfound t hseek
        | false =>
          rw [after_ok hr]
          intro hrow
          -- after its rows a filter is on none
          rw [OnRowState, show RowCursor.state _ = f.state.finish from rfl] at hrow
          simp [CursorState.onRow, CursorState.finish] at hrow
      | error e t =>
        rw [hseek] at hr
        rw [after_error hr]
        exact fun hrow => onRow_of_seek_failed hlooks _ _ (h hrow) hseek

/-- **A filter on a row stands above a row after every call**, if its test only
looks. -/
theorem Rests.after {s : FilteredCursor γ × Client} (hlooks : s.1.test.Looks) (h : Rests s.1)
    (k : CursorCall) : Rests (k.after s).1 := by
  by_cases hnext : k = .next
  · subst hnext
    exact h.next hlooks
  by_cases hfirst : k = .first
  · subst hfirst
    rcases RowCursor.first_after s with hf | hf <;> rw [hf]
    · exact h
    · exact h.next hlooks
  intro hrow
  have hbefore : OnRowState s.1 := (TrackedCursor.onRow_of_quiet hnext hfirst).mp hrow
  have hinner : OnRowState (under s).1 := h hbefore
  have hafter : OnRowState (under (k.after s)).1 := by
    rw [under_after]
    exact (TrackedCursor.onRow_of_quiet_calls (quiet_passed hnext hfirst s)).mpr hinner
  exact hafter

end FilteredCursor

/-! ### All filters -/

namespace CursorStack

/-- Each filter that is on a row stands above a cursor that is on one. -/
def Rests : (n : Nat) → CursorStack n → Prop
  | 0, _ => True
  | n + 1, f => FilteredCursor.Rests (f : FilteredCursor (CursorStack n)) ∧
      Rests n (f : FilteredCursor (CursorStack n)).inner

/-- The cursor and all filters above it are open and on a row. -/
def OnRows : (n : Nat) → CursorStack n → Prop
  | 0, c => (RowCursor.state (c : BaseCursor)).ensureRow = .ok ()
  | n + 1, f => (f : FilteredCursor (CursorStack n)).state.ensureRow = .ok () ∧
      OnRows n (f : FilteredCursor (CursorStack n)).inner

theorem rests_of_call (k : CursorCall) : ∀ {n : Nat} {s : CursorStack n × Client},
    Looks n s.1 → Rests n s.1 → Rests n (k.after s).1
  | 0, _, _, _ => trivial
  | n + 1, s, ⟨htest, hlooks⟩, ⟨hfilter, hinner⟩ => by
    have hkept := FilteredCursor.keeps_under (γ := CursorStack n)
      (P := fun t => Looks n t.1 ∧ Rests n t.1)
      (fun t k' ht => ⟨(tellsRow n).keeps t k' ht.1, rests_of_call k' ht.1 ht.2⟩)
      (s := s) ⟨hlooks, hinner⟩ k
    exact ⟨FilteredCursor.Rests.after (γ := CursorStack n) htest hfilter k, hkept.2⟩

/-- On a row all that is under the filters is on a row. -/
theorem onRows_of_rests : ∀ {n : Nat} {c : CursorStack n}, Agrees false n c → Rests n c →
    OnRowState c → OnRows n c
  | 0, _, hopen, _, hrow => CursorState.ensureRow_eq_ok.mpr ⟨hopen, hrow⟩
  | n + 1, _, ⟨hopen, hagrees⟩, ⟨hfilter, hrests⟩, hrow =>
    ⟨CursorState.ensureRow_eq_ok.mpr ⟨hopen, hrow⟩,
      onRows_of_rests (n := n) hagrees hrests (hfilter hrow)⟩

theorem OnRows.base : ∀ {n : Nat} {c : CursorStack n}, OnRows n c →
    (RowCursor.state (CursorStack.base n c)).ensureRow = .ok ()
  | 0, _, h => h
  | n + 1, _, ⟨_, h⟩ => OnRows.base (n := n) h

/-- **On rows throughout, a getter reads what is under all filters.** -/
theorem OnRows.getObject (label : String) : ∀ {n : Nat} {s : CursorStack n × Client},
    OnRows n s.1 →
      (CursorCall.getObject label).answer s = (CursorCall.getObject label).answer (bottom s)
  | 0, _, _ => rfl
  | n + 1, s, ⟨hensure, hrows⟩ => by
    have hanswer := FilteredCursor.getObject_answer (γ := CursorStack n) label s
    rw [hensure] at hanswer
    exact hanswer.trans (OnRows.getObject label (s := FilteredCursor.under s) hrows)

/-- A getter reads what is under all filters, or it is refused. -/
theorem getObject_cases (label : String) : ∀ {n : Nat} (s : CursorStack n × Client),
    (CursorCall.getObject label).answer s = (CursorCall.getObject label).answer (bottom s) ∨
      (CursorCall.getObject label).answer s = .error (.closed "cursor") ∨
      (CursorCall.getObject label).answer s = .error .outsideRow
  | 0, _ => .inl rfl
  | n + 1, s => by
    have hanswer := FilteredCursor.getObject_answer (γ := CursorStack n) label s
    rcases s.1.state.ensureRow_cases with ⟨-, -, h⟩ | ⟨-, h⟩ | ⟨-, -, h⟩ <;>
      rw [h] at hanswer
    · have hinner := getObject_cases label (FilteredCursor.under (γ := CursorStack n) s)
      exact hinner.imp hanswer.trans (Or.imp hanswer.trans hanswer.trans)
    · exact .inr (.inl hanswer)
    · exact .inr (.inr hanswer)

end CursorStack

namespace Cursor

/-- Each filter that is on a row stands above a cursor that is on one. -/
def Rests (c : Cursor) : Prop := CursorStack.Rests c.filters c.stack

/-- The cursor and all filters above it are open and on a row. -/
def OnRows (c : Cursor) : Prop := CursorStack.OnRows c.filters c.stack

variable {s : Cursor × Client} {c : Cursor}

/-- **A cursor of which each filter on a row stands above a row stays so**, whatever
is called, if their tests only look. -/
theorem rests_of_call (hlooks : s.1.Looks) (h : s.1.Rests) (k : CursorCall) :
    (k.after s).1.Rests := by
  rw [after_eq_mk]
  exact CursorStack.rests_of_call k (s := (s.1.stack, s.2)) hlooks h

/-- **On a row all that is under the filters is on a row**, whatever was called, if
their tests only look. -/
theorem onRows_of_calls (huniform : s.1.Uniform) (hrests : s.1.Rests) (calls : List CursorCall)
    (hrow : (RowCursor.state (afterAll s calls).1).ensureRow = .ok ()) :
    (afterAll s calls).1.OnRows := by
  obtain ⟨hopen, hon⟩ := CursorState.ensureRow_eq_ok.mp hrow
  obtain ⟨huniform', hrests'⟩ := (exchanges_keep
    (I := fun t : Cursor × Client => t.1.Uniform ∧ t.1.Rests)
    (fun _ k ht (_ : True) => ⟨ht.1.after k, rests_of_call ht.1.looks ht.2 k⟩) calls s
    ⟨huniform, hrests⟩ fun _ _ => trivial).1
  exact CursorStack.onRows_of_rests (huniform'.agrees_of_open hopen) hrests' hon

/-- A cursor with one filter or none is on rows throughout, if it is so outermost and
under the filter. -/
theorem onRows_of_base (hfilters : c.filters ≤ 1) (hrow : (RowCursor.state c).ensureRow = .ok ())
    (hbase : (RowCursor.state c.base).ensureRow = .ok ()) : c.OnRows := by
  obtain ⟨n, stack⟩ := c
  match n, stack, hfilters with
  | 0, _, _ => exact hbase
  | 1, _, _ => exact ⟨hrow, hbase⟩

theorem OnRows.base (h : c.OnRows) : (RowCursor.state c.base).ensureRow = .ok () :=
  CursorStack.OnRows.base h

theorem OnRows.getObject (h : s.1.OnRows) (label : String) :
    (CursorCall.getObject label).answer s = (CursorCall.getObject label).answer (bottom s) := by
  have hwrapped := (carries_mk s.1.filters).answer (.getObject label) (s.1.stack, s.2)
  exact hwrapped.trans (CursorStack.OnRows.getObject label (s := (s.1.stack, s.2)) h)

theorem getObject_cases (s : Cursor × Client) (label : String) :
    (CursorCall.getObject label).answer s = (CursorCall.getObject label).answer (bottom s) ∨
      (CursorCall.getObject label).answer s = .error (.closed "cursor") ∨
      (CursorCall.getObject label).answer s = .error .outsideRow := by
  have hwrapped := (carries_mk s.1.filters).answer (.getObject label) (s.1.stack, s.2)
  have hcases := CursorStack.getObject_cases label (s.1.stack, s.2)
  exact hcases.imp hwrapped.trans (Or.imp hwrapped.trans hwrapped.trans)

end Cursor

end KeyedRows
