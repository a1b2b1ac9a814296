/-
# What a filtered cursor shows

The test of a row runs on the cursor under the filter. One that only looks keeps
its place (`run_cases`), so moving to the next accepted row ends on a row of which the
test says that it accepts it, after the last row, or with a failure
(`seek_cases`). A failure may come after rows that the test did not accept:
then the cursor under the filter stands on one of them, and the getters read
it although the filtered cursor has not moved.

Key definitions: `RowTest.Says`, `Sought`, `Exchange.slipped`, `Exposure`.
Key theorem: **`exposure_of_calls`**.
-/
import KeyedRows.Cursor.Comparison
import KeyedRows.Proofs.Cursor.Closed
import KeyedRows.Proofs.Cursor.Under

namespace KeyedRows

open CursorM CursorCall

/-- What a test that looks says of a row with these values and this number, if it is
told some metadata whenever it asks for them. -/
inductive RowTest.Says (values : String → Except Error Value) (row : Nat) :
    RowTest → Except Error Bool → Prop where
  | answer (a : Except Error Bool) : Says values row (.answer a) a
  | object {label : String} {next : Except Error Value → RowTest} {a : Except Error Bool} :
      Says values row (next (values label)) a → Says values row (.object label next) a
  | row {next : Nat → RowTest} {a : Except Error Bool} :
      Says values row (next row) a → Says values row (.row next) a
  | metadata {next : Except Error ResultMetadata → RowTest} {a : Except Error Bool}
      (m : Except Error ResultMetadata) :
      Says values row (next m) a → Says values row (.metadata next) a

/-! ### Testing a row -/

namespace RecordCursor

variable {c d : RecordCursor} {cl : Client}

theorem SamePlace.row (h : SamePlace c d) : d.state.row = c.state.row := by
  simp only [CursorState.row, h.position, h.done]

/-- The place is kept and the cursor is open. -/
structure Kept (c d : RecordCursor) : Prop where
  place : SamePlace c d
  placed : WellPlaced d

theorem Looked.kept (h : Looked c d) : Kept c d := ⟨h.place, h.placed⟩

theorem metadata_kept (h : WellPlaced c) : Kept c (CursorCall.metadata.after (c, cl)).1 := by
  have hrun : CursorCall.metadata.run (c, cl) = getMetadata (c, cl) := rfl
  have hask := getMetadata_asked h cl
  unfold CursorCall.after
  rw [hrun]
  cases hr : getMetadata (c, cl) with
  | ok m t =>
    rw [hr] at hask
    exact hask.kept
  | error e t =>
    rw [hr] at hask
    rcases hask with ht | ⟨hl, -⟩
    · exact ⟨ht.place, ht.placed⟩
    · exact hl.kept

/-- A test that ran on a cursor standing on a record. -/
def Tested (c : RecordCursor) (r : Record) (test : RowTest) :
    EStateM.Result Error (RecordCursor × Client) Bool → Prop
  | .ok b t => Kept c t.1 ∧ test.Says (reading c.columns c.settings r) c.state.row (.ok b)
  | .error e t => Kept c t.1 ∧ test.Says (reading c.columns c.settings r) c.state.row (.error e)

/-- What a rest of the test says at the same place, the test says here. -/
theorem Tested.of_rest {r : Record} {rest test : RowTest}
    {res : EStateM.Result Error (RecordCursor × Client) Bool} (h : Tested d r rest res)
    (hp : SamePlace c d)
    (hs : ∀ a, rest.Says (reading c.columns c.settings r) c.state.row a →
      test.Says (reading c.columns c.settings r) c.state.row a) : Tested c r test res := by
  unfold Tested at h ⊢
  rw [hp.columns, hp.settings, hp.row] at h
  cases res with
  | ok b t => exact ⟨⟨hp.trans h.1.place, h.1.placed⟩, hs _ h.2⟩
  | error e t => exact ⟨⟨hp.trans h.1.place, h.1.placed⟩, hs _ h.2⟩

/-- **A test that looks says what it says of the current record, and keeps the
place.** -/
theorem run_cases {r : Record} : ∀ {test : RowTest}, test.Looks → ∀ (c : RecordCursor)
    (cl : Client), WellPlaced c → c.current = some r → Tested c r test (test.run (c, cl))
  | .answer (.ok b), _, c, _, h, _ => ⟨⟨.refl c, h⟩, .answer _⟩
  | .answer (.error e), _, c, _, h, _ => ⟨⟨.refl c, h⟩, .answer _⟩
  | .object label next, hlooks, c, cl, h, hr => by
    have hl : Looked c ((CursorCall.getObject label).after (c, cl)).1 := getObject_looked h label
    rw [RowTest.run_object, (reads_of_current (s := (c, cl)) h hr).getObject]
    exact (run_cases (hlooks _) _ _ hl.placed (hl.place.current.trans hr)).of_rest hl.place
      fun a ha => .object ha
  | .row next, hlooks, c, cl, h, hr =>
    (run_cases (hlooks c.state.row) c cl h hr).of_rest (.refl c) fun a ha => .row ha
  | .metadata next, hlooks, c, cl, h, hr => by
    have hk : Kept c (CursorCall.metadata.after (c, cl)).1 := metadata_kept h
    rw [RowTest.run_metadata]
    exact (run_cases (hlooks _) _ _ hk.placed (hk.place.current.trans hr)).of_rest hk.place
      fun a ha => .metadata _ ha
  | .call _ _, hlooks, _, _, _, _ => hlooks.elim

/-! ### Moving to an accepted row -/

/-- The cursor stands on a row of which the test says this. -/
def SaysHere (test : RowTest) (c : RecordCursor) (a : Except Error Bool) : Prop :=
  ∃ r, c.current = some r ∧ test.Says (reading c.columns c.settings r) c.state.row a

/-- The second cursor has the same columns. -/
def SameColumns (c d : RecordCursor) : Prop := d.columns = c.columns ∧ d.settings = c.settings

theorem SamePlace.sameColumns (h : SamePlace c d) : SameColumns c d := ⟨h.columns, h.settings⟩

theorem SameColumns.trans {b : RecordCursor} (h : SameColumns b c) (k : SameColumns c d) :
    SameColumns b d := ⟨k.1.trans h.1, k.2.trans h.2⟩

/-- Where moving to an accepted row ends. A failure comes before any move, or
on a row that the test did not accept. -/
def Sought (test : RowTest) (c : RecordCursor) :
    EStateM.Result Error (RecordCursor × Client) Bool → Prop
  | .ok true t => SameColumns c t.1 ∧ WellPlaced t.1 ∧ SaysHere test t.1 (.ok true)
  | .ok false t => SameColumns c t.1 ∧ Settled t.1
  | .error _ t => Settled t.1 ∧ (SamePlace c t.1 ∨
      SameColumns c t.1 ∧ c.state.position < t.1.state.position ∧ WellPlaced t.1 ∧
        ∃ a, a ≠ .ok true ∧ SaysHere test t.1 a)

theorem SaysHere.at_place {test : RowTest} {a : Except Error Bool} (h : SaysHere test c a)
    (hp : SamePlace c d) : SaysHere test d a := by
  obtain ⟨r, hr, hs⟩ := h
  exact ⟨r, hp.current.trans hr, by rwa [hp.columns, hp.settings, hp.row]⟩

/-- Going on from a later row that the test did not accept ends where the
whole ends. -/
theorem Sought.of_later {test : RowTest} {res : EStateM.Result Error (RecordCursor × Client) Bool}
    (h : Sought test d res) (hc : SameColumns c d)
    (hpos : c.state.position < d.state.position) (hd : WellPlaced d)
    (hs : SaysHere test d (.ok false)) : Sought test c res := by
  cases res with
  | ok b t =>
    cases b with
    | true => exact ⟨hc.trans h.1, h.2⟩
    | false => exact ⟨hc.trans h.1, h.2⟩
  | error e t =>
    refine ⟨h.1, .inr ?_⟩
    rcases h.2 with hp | ⟨hc', hlt, ht, hn⟩
    · have hne : (.ok false : Except Error Bool) ≠ .ok true := by simp
      exact ⟨hc.trans hp.sameColumns, by rw [hp.position]; exact hpos, hp.placed hd h.1,
        .ok false, hne, hs.at_place hp⟩
    · exact ⟨hc.trans hc', by omega, ht, hn⟩

/-- **Moving to an accepted row ends on one, after the last row, or with a
failure that may come after rows that were not accepted.** -/
theorem seek_cases {test : RowTest} (hlooks : test.Looks) (moves : Nat) (c : RecordCursor)
    (cl : Client) (h : Settled c) : Sought test c (FilteredCursor.seek test moves (c, cl)) := by
  induction moves generalizing c cl with
  | zero => exact ⟨⟨rfl, rfl⟩, h⟩
  | succ moves ih =>
    have hnext : (RowCursor.next : CursorM RecordCursor Bool) = next := rfl
    rw [FilteredCursor.seek, bind_apply, hnext]
    rcases h with h | h
    · rcases next_cases h cl with ⟨r, d, hn, hd, -, hc, hs, hcur, hst⟩ |
          ⟨d, hn, hd, -, -, hc, hs, -⟩ | ⟨e, d, hn, ht, -⟩
      · have hpos : c.state.position < d.state.position := by
          rw [hst]
          simp [CursorState.advance]
        have htest := run_cases hlooks d cl hd hcur
        simp only [hn, if_true, bind_apply]
        cases hr : test.run (d, cl) with
        | error e t =>
          rw [hr] at htest
          obtain ⟨hk, hsays⟩ := htest
          have hcols : SameColumns c t.1 :=
            ⟨hk.place.columns.trans hc, hk.place.settings.trans hs⟩
          have hfailed : (.error e : Except Error Bool) ≠ .ok true := by simp
          refine ⟨.inl hk.placed, .inr ⟨hcols, by rw [hk.place.position]; exact hpos, hk.placed,
            .error e, hfailed, ?_⟩⟩
          exact SaysHere.at_place ⟨r, hcur, hsays⟩ hk.place
        | ok b t =>
          rw [hr] at htest
          obtain ⟨hk, hsays⟩ := htest
          have hhere : SaysHere test t.1 (.ok b) := SaysHere.at_place ⟨r, hcur, hsays⟩ hk.place
          have hcols : SameColumns c t.1 :=
            ⟨hk.place.columns.trans hc, hk.place.settings.trans hs⟩
          cases b with
          | true => exact ⟨hcols, hk.placed, hhere⟩
          | false =>
            exact (ih t.1 t.2 (.inl hk.placed)).of_later hcols
              (by rw [hk.place.position]; exact hpos) hk.placed hhere
      · simp only [hn]
        exact ⟨⟨hc, hs⟩, .inl hd⟩
      · simp only [hn]
        exact ⟨.inl ht.placed, .inl ht.place⟩
    · simp only [next_closed h]
      exact ⟨.inr h, .inl (.refl c)⟩

theorem Settled.getObject (h : Settled c) (label : String) :
    SamePlace c ((CursorCall.getObject label).after (c, cl)).1 := by
  rcases h with h | h
  · exact (getObject_looked h label).place
  · have hr : (CursorCall.getObject label).run (c, cl) = _ :=
      RowCursor.getObject_closed (show (RowCursor.state c).closed = true from h) label cl
    rw [after_error hr]
    exact .refl c

theorem Settled.getMetadata (h : Settled c) :
    SamePlace c (CursorCall.metadata.after (c, cl)).1 := by
  rcases h with h | h
  · exact (metadata_kept h).place
  · have hr : CursorCall.metadata.run (c, cl) = _ := getMetadata_closed h cl
    rw [after_error hr]
    exact .refl c

end RecordCursor

/-! ### What the calls of a filtered cursor do -/

namespace FilteredCursor

open RecordCursor (Settled SamePlace SameColumns SaysHere WellPlaced Sought)

/-- The second cursor stands where the first one does, and so does the one
under its filter. -/
structure Quiet (f g : FilteredCursor RecordCursor) : Prop where
  test : g.test = f.test
  position : g.state.position = f.state.position
  done : g.state.done = f.state.done
  closed : g.state.closed = f.state.closed
  inner : SamePlace f.inner g.inner
  settled : Settled g.inner

variable {f : FilteredCursor RecordCursor} {cl : Client}

theorem Quiet.of_state (h : Settled f.inner) {st : CursorState}
    (hp : st.position = f.state.position) (hd : st.done = f.state.done)
    (hc : st.closed = f.state.closed) : Quiet f { f with state := st } :=
  ⟨rfl, hp, hd, hc, .refl _, h⟩

theorem Quiet.refl (h : Settled f.inner) : Quiet f f := .of_state h rfl rfl rfl

theorem quiet_of_onInner (h : Settled f.inner) (cl : Client) {k : CursorCall}
    (hk : SamePlace f.inner (k.after (f.inner, cl)).1) :
    Quiet f { f with inner := (k.after (f.inner, cl)).1 } :=
  ⟨rfl, rfl, rfl, rfl, hk, h.after k⟩

theorem readValue_quiet (h : Settled f.inner) (label : String) (cl : Client) :
    Quiet f ((CursorCall.readValue label).after (f, cl)).1 := by
  have hr : (CursorCall.readValue label).run (f, cl) =
      onInner (CursorCall.getObject label).run (f, cl) := rfl
  have hq := quiet_of_onInner h cl (h.getObject label)
  unfold CursorCall.after at hq ⊢
  rw [hr, onInner_apply]
  cases (CursorCall.getObject label).answer (f.inner, cl) <;> exact hq

theorem metadata_quiet (h : Settled f.inner) :
    Quiet f (CursorCall.metadata.after (f, cl)).1 := by
  have hr : CursorCall.metadata.run (f, cl) = getMetadata (f, cl) := rfl
  have hq := quiet_of_onInner h cl h.getMetadata
  unfold CursorCall.after at hq ⊢
  rw [hr, getMetadata]
  simp only [bind_apply, cursor_apply, CursorState.ensureOpen]
  cases f.state.closed with
  | true => exact .refl h
  | false =>
    have ho := onInner_apply CursorCall.metadata f cl
    simp only [CursorCall.run] at ho
    simp only [Bool.false_eq_true, if_false, ofExcept_ok, ho]
    cases CursorCall.metadata.answer (f.inner, cl) <;> exact hq

theorem getObject_quiet (h : Settled f.inner) (label : String) :
    Quiet f ((CursorCall.getObject label).after (f, cl)).1 := by
  have hq := readValue_quiet h label cl
  rcases RowCursor.getObject_after label (f, cl) with hg | hg | ⟨v, hg⟩ <;> rw [hg]
  · exact .refl h
  · exact hq
  · exact ⟨hq.test, hq.position, hq.done, hq.closed, hq.inner, hq.settled⟩

/-- The calls that may move or close the cursor. -/
def goes : CursorCall → Bool
  | .next => true
  | .first => true
  | .close => true
  | _ => false

theorem quiet_of_call (h : Settled f.inner) {k : CursorCall} (hk : goes k = false) :
    Quiet f (k.after (f, cl)).1 := by
  cases k with
  | next | first | close => cases hk
  | metadata => exact metadata_quiet h
  | findColumn label =>
    rw [RowCursor.findColumn_after]
    exact metadata_quiet h
  | isLast => exact .refl h
  | readValue label => exact readValue_quiet h label cl
  | getObject label => exact getObject_quiet h label
  | get α label =>
    rw [RowCursor.get_after]
    exact getObject_quiet h label
  | setFetchDirection d =>
    rcases RowCursor.setFetchDirection_after d (f, cl) with hd | ⟨text, hd⟩ <;> rw [hd]
    · exact .refl h
    · exact .of_state h rfl rfl rfl
  | setFetchSize rows =>
    rw [RowCursor.setFetchSize_after]
    exact .refl h
  | clearWarnings => exact .of_state h rfl rfl rfl
  | scroll m => exact .refl h
  | state => exact .refl h

/-- **A move of a filtered cursor.** It counts the row that the test accepted;
when it fails it counts none, wherever the cursor under the filter went. -/
theorem next_cases (hlooks : f.test.Looks) (h : Settled f.inner) (hopen : f.state.closed = false)
    (cl : Client) :
    (∃ g t, next (f, cl) = .ok true (g, t) ∧ g.test = f.test ∧ g.state = f.state.advance ∧
      SameColumns f.inner g.inner ∧ WellPlaced g.inner ∧ SaysHere f.test g.inner (.ok true)) ∨
    (∃ g t, next (f, cl) = .ok false (g, t) ∧ g.test = f.test ∧ g.state = f.state.finish ∧
      SameColumns f.inner g.inner ∧ Settled g.inner) ∨
    (∃ e g t, next (f, cl) = .error e (g, t) ∧ g.test = f.test ∧ g.state = f.state ∧
      Settled g.inner ∧ (SamePlace f.inner g.inner ∨ SameColumns f.inner g.inner ∧
        f.inner.state.position < g.inner.state.position ∧ WellPlaced g.inner ∧
        ∃ a, a ≠ .ok true ∧ SaysHere f.test g.inner a)) := by
  unfold next
  simp only [bind_apply, cursor_apply, CursorState.ensureOpen, hopen]
  cases hd : f.state.done with
  | true =>
    refine .inr (.inl ⟨f, cl, rfl, rfl, ?_, ⟨rfl, rfl⟩, h⟩)
    simp [CursorState.finish, ← hd]
  | false =>
    have hs := RecordCursor.seek_cases hlooks (RowCursor.remaining f.inner + 1) f.inner cl h
    cases hr : seek f.test (RowCursor.remaining f.inner + 1) (f.inner, cl) with
    | ok b t =>
      rw [hr] at hs
      cases b with
      | true =>
        obtain ⟨hc, hw, hh⟩ := hs
        exact .inl ⟨{ f with inner := t.1, state := f.state.advance }, t.2,
          by simp [bind_apply, onInner_ok hr]; rfl, rfl, rfl, hc, hw, hh⟩
      | false =>
        obtain ⟨hc, hw⟩ := hs
        exact .inr (.inl ⟨{ f with inner := t.1, state := f.state.finish }, t.2,
          by simp [bind_apply, onInner_ok hr]; rfl, rfl, rfl, hc, hw⟩)
    | error e t =>
      rw [hr] at hs
      exact .inr (.inr ⟨e, { f with inner := t.1 }, t.2, by simp [bind_apply, onInner_error hr],
        rfl, rfl, hs.1, hs.2⟩)

end FilteredCursor

/-- The call failed after it had moved the cursor under the filter. -/
def Exchange.slipped (x : Exchange (FilteredCursor RecordCursor)) : Prop :=
  x.error?.isSome = true ∧ x.before.1.inner.state.position < x.after.1.inner.state.position

namespace FilteredCursor

open RecordCursor (Settled SamePlace SameColumns SaysHere WellPlaced Sought)

variable {f : FilteredCursor RecordCursor} {cl : Client}

/-- What a call did. -/
inductive Did (x : Exchange (FilteredCursor RecordCursor)) : Prop where
  | accepted (answer : x.moved? = some true) (test : x.after.1.test = x.before.1.test)
      (columns : SameColumns x.before.1.inner x.after.1.inner) (placed : WellPlaced x.after.1.inner)
      (verdict : SaysHere x.before.1.test x.after.1.inner (.ok true))
  | gone (gone : x.after.1.state.done = true ∨ x.after.1.state.closed = true)
      (test : x.after.1.test = x.before.1.test)
      (columns : SameColumns x.before.1.inner x.after.1.inner) (settled : Settled x.after.1.inner)
  | slipped (answer : x.moved? = none) (slipped : x.slipped)
      (test : x.after.1.test = x.before.1.test) (state : x.after.1.state = x.before.1.state)
      (columns : SameColumns x.before.1.inner x.after.1.inner) (placed : WellPlaced x.after.1.inner)
      (verdict : ∃ a, a ≠ .ok true ∧ SaysHere x.before.1.test x.after.1.inner a)
  | quiet (answer : x.moved? = none) (quiet : Quiet x.before.1 x.after.1)

theorem next_did (hlooks : f.test.Looks) (h : Settled f.inner) (cl : Client) :
    Did ⟨(f, cl), .next⟩ := by
  have hrun : CursorCall.next.run (f, cl) = next (f, cl) := rfl
  cases hc : f.state.closed with
  | true =>
    have hn : CursorCall.next.run (f, cl) = .error (.closed "cursor") (f, cl) := by
      rw [hrun]
      simp [next, bind_apply, CursorState.ensureOpen, hc]
    refine .quiet (Exchange.moved?_of_error (Exchange.error?_error hn)) ?_
    rw [Exchange.after, after_error hn]
    exact .refl h
  | false =>
    rcases next_cases hlooks h hc cl with ⟨g, t, hn, ht, hs, hcol, hw, hh⟩ |
        ⟨g, t, hn, ht, hs, hcol, hset⟩ | ⟨e, g, t, hn, ht, hs, hset, hwhere⟩
    · have hafter : (Exchange.mk (f, cl) .next).after = (g, t) := after_ok (hrun.trans hn)
      refine .accepted (Exchange.moved?_next (hrun.trans hn)) ?_ ?_ ?_ ?_
      all_goals rw [hafter]; assumption
    · have hafter : (Exchange.mk (f, cl) .next).after = (g, t) := after_ok (hrun.trans hn)
      refine .gone (.inl ?_) ?_ ?_ ?_
      · rw [hafter, hs]
        rfl
      all_goals rw [hafter]; assumption
    · have hr := hrun.trans hn
      have hafter : (Exchange.mk (f, cl) .next).after = (g, t) := after_error hr
      have hmoved := Exchange.moved?_of_error (Exchange.error?_error hr)
      rcases hwhere with hp | ⟨hcol, hpos, hw, hh⟩
      · refine .quiet hmoved ?_
        rw [hafter]
        exact ⟨ht, by rw [hs], by rw [hs], by rw [hs], hp, hset⟩
      · refine .slipped hmoved ⟨?_, ?_⟩ ?_ ?_ ?_ ?_ ?_
        · rw [Exchange.error?_error hr]
          rfl
        all_goals rw [hafter]; assumption

theorem first_did (hlooks : f.test.Looks) (h : Settled f.inner) : Did ⟨(f, cl), .first⟩ := by
  have hstay : ∀ e, CursorCall.first.run (f, cl) = .error e (f, cl) →
      Did ⟨(f, cl), .first⟩ := by
    intro e hr
    refine .quiet (Exchange.moved?_of_error (Exchange.error?_error hr)) ?_
    rw [Exchange.after, after_error hr]
    exact .refl h
  have hs : RowCursor.state f = f.state := rfl
  cases hc : f.state.closed with
  | true =>
    refine hstay (.closed "cursor") ?_
    rw [CursorCall.run, RowCursor.first, bind_apply, RowCursor.ensureOpen]
    simp only [bind_apply, RowCursor.getState_apply, CursorState.ensureOpen, hs, hc]
    rfl
  | false =>
    have hrun : CursorCall.first.run (f, cl) = _ :=
      RowCursor.first_apply (show (RowCursor.state f).closed = false from hc)
    split_ifs at hrun with hb
    · obtain ⟨hafter, hmoved, herror⟩ := RowCursor.first_same hrun
      cases next_did hlooks h cl with
      | accepted hm ht hcol hw hv =>
        rw [← hafter] at ht hcol hw hv
        exact .accepted (hmoved.trans hm) ht hcol hw hv
      | gone hg ht hcol hset =>
        rw [← hafter] at hg ht hcol hset
        exact .gone hg ht hcol hset
      | slipped hm hslip ht hst hcol hw hv =>
        have hslip' : (Exchange.mk (f, cl) CursorCall.first).slipped := by
          unfold Exchange.slipped at hslip ⊢
          rw [hafter, herror]
          exact hslip
        rw [← hafter] at ht hst hcol hw hv
        exact .slipped (hmoved.trans hm) hslip' ht hst hcol hw hv
      | quiet hm hq =>
        rw [← hafter] at hq
        exact .quiet (hmoved.trans hm) hq
    · exact hstay _ hrun

theorem close_did (h : Settled f.inner) : Did ⟨(f, cl), .close⟩ := by
  have hrun : CursorCall.close.run (f, cl) = close (f, cl) := rfl
  cases hc : f.state.closed with
  | true =>
    have hn : CursorCall.close.run (f, cl) = .ok () (f, cl) := by
      rw [hrun]
      simp [close, bind_apply, hc]
    refine .gone (.inr ?_) ?_ ?_ ?_
    all_goals rw [Exchange.after, after_ok hn]
    · exact hc
    · exact ⟨rfl, rfl⟩
    · exact h
  | false =>
    have hn : CursorCall.close.run (f, cl) =
        onInner CursorCall.close.run ({ f with state := f.state.close }, cl) := by
      rw [hrun]
      simp [close, bind_apply, hc]
      rfl
    have hafter : (Exchange.mk (f, cl) .close).after.1 =
        { f with
          state := f.state.close
          inner := (CursorCall.close.after (f.inner, cl)).1 } := by
      rw [Exchange.after, CursorCall.after, hn, onInner_apply]
      cases CursorCall.close.answer (f.inner, cl) <;> rfl
    refine .gone (.inr ?_) ?_ ?_ ?_
    all_goals rw [hafter]
    · rfl
    · exact RecordCursor.close_columns f.inner cl
    · exact h.after .close

theorem call_did (hlooks : f.test.Looks) (h : Settled f.inner) (k : CursorCall) :
    Did ⟨(f, cl), k⟩ := by
  cases hk : goes k with
  | false =>
    refine .quiet ?_ (quiet_of_call h hk)
    cases k with
    | next | first => cases hk
    | _ => rfl
  | true =>
    cases k with
    | next => exact next_did hlooks h cl
    | first => exact first_did hlooks h
    | close => exact close_did h
    | _ => cases hk

/-! ### What is shown after calls -/

/-- The row under the filter, told from the calls: it is the row on which the
last move to a row ended, unless a call slipped since, and then it is one that
the test did not accept. -/
structure Shows (test : RowTest) (pre : List (Exchange (FilteredCursor RecordCursor)))
    (x : Exchange (FilteredCursor RecordCursor))
    (post : List (Exchange (FilteredCursor RecordCursor))) (c : RecordCursor) : Prop where
  moved : x.moved? = some true
  since : ∀ y ∈ post, y.moved? = none
  accepted : SaysHere test x.after.1.inner (.ok true)
  placed : WellPlaced c
  columns : SameColumns x.after.1.inner c
  row : (∀ y ∈ post, ¬ y.slipped) ∧ SamePlace x.after.1.inner c ∨
    (∃ y ∈ post, y.slipped) ∧ ∃ a, a ≠ .ok true ∧ SaysHere test c a

/-- What holds after calls of the cursor that they left. -/
structure Stands (start : FilteredCursor RecordCursor)
    (xs : List (Exchange (FilteredCursor RecordCursor))) (f : FilteredCursor RecordCursor) :
    Prop where
  settled : Settled f.inner
  test : f.test = start.test
  columns : SameColumns start.inner f.inner
  row : f.state.closed = false → f.state.onRow = true →
    ∃ pre x post, xs = pre ++ x :: post ∧ Shows f.test pre x post f.inner

theorem Stands.step {start : FilteredCursor RecordCursor}
    {xs : List (Exchange (FilteredCursor RecordCursor))}
    {x : Exchange (FilteredCursor RecordCursor)} (h : Stands start xs x.before.1) (hx : Did x) :
    Stands start (xs ++ [x]) x.after.1 := by
  cases hx with
  | accepted hm ht hcol hw hv =>
    refine ⟨.inl hw, ht.trans h.test, h.columns.trans hcol, fun _ _ => ⟨xs, x, [], rfl, ?_⟩⟩
    rw [ht]
    exact ⟨hm, by simp, hv, hw, ⟨rfl, rfl⟩, .inl ⟨by simp, .refl _⟩⟩
  | gone hg ht hcol hset =>
    refine ⟨hset, ht.trans h.test, h.columns.trans hcol, fun hopen hon => ?_⟩
    rcases hg with hdone | hclosed
    · simp [CursorState.onRow, hdone] at hon
    · rw [hclosed] at hopen
      cases hopen
  | slipped hm hslip ht hst hcol hw hv =>
    refine ⟨.inl hw, ht.trans h.test, h.columns.trans hcol, fun hopen hon => ?_⟩
    rw [hst] at hopen hon
    obtain ⟨pre, y, post, rfl, hy⟩ := h.row hopen hon
    have hsince : ∀ z ∈ post ++ [x], z.moved? = none :=
      List.forall_mem_append.mpr ⟨hy.since, by simpa using hm⟩
    exact ⟨pre, y, post ++ [x], by simp, hy.moved, hsince, ht ▸ hy.accepted, hw,
      hy.columns.trans hcol, .inr ⟨⟨x, by simp, hslip⟩, ht ▸ hv⟩⟩
  | quiet hm hq =>
    refine ⟨hq.settled, hq.test.trans h.test, h.columns.trans hq.inner.sameColumns,
      fun hopen hon => ?_⟩
    have honb : x.before.1.state.onRow = true := by
      rw [← hon]
      simp only [CursorState.onRow, hq.position, hq.done]
    obtain ⟨pre, y, post, rfl, hy⟩ := h.row (hq.closed ▸ hopen) honb
    have hnot : ¬ x.slipped := by
      rintro ⟨-, hlt⟩
      rw [hq.inner.position] at hlt
      exact lt_irrefl _ hlt
    have hsince : ∀ z ∈ post ++ [x], z.moved? = none :=
      List.forall_mem_append.mpr ⟨hy.since, by simpa using hm⟩
    refine ⟨pre, y, post ++ [x], by simp, hy.moved, hsince, hq.test ▸ hy.accepted,
      hq.inner.placed hy.placed hq.settled, hy.columns.trans hq.inner.sameColumns, ?_⟩
    rcases hy.row with ⟨hno, hp⟩ | ⟨⟨z, hz, hslip⟩, a, ha, hv⟩
    · exact .inl ⟨List.forall_mem_append.mpr ⟨hno, by simpa using hnot⟩, hp.trans hq.inner⟩
    · exact .inr ⟨⟨z, List.mem_append_left _ hz, hslip⟩, a, ha, (hq.test ▸ hv).at_place hq.inner⟩

theorem stands_of_calls {start : FilteredCursor RecordCursor} (hlooks : start.test.Looks)
    (h : Stands start [] start) (cl : Client) (calls : List CursorCall) :
    Stands start (exchanges (start, cl) calls) (afterAll (start, cl) calls).1 := by
  induction calls using List.reverseRecOn with
  | nil => exact h
  | append_singleton ks k ih =>
    rw [exchanges_append, afterAll_append]
    have hlooks' : (afterAll (start, cl) ks).1.test.Looks := by rwa [ih.test]
    exact Stands.step (x := ⟨afterAll (start, cl) ks, k⟩) ih (call_did hlooks' ih.settled k)

theorem Shows.current {test : RowTest} {pre post : List (Exchange (FilteredCursor RecordCursor))}
    {x : Exchange (FilteredCursor RecordCursor)} {c : RecordCursor}
    (h : Shows test pre x post c) : ∃ r, c.current = some r := by
  rcases h.row with ⟨-, hp⟩ | ⟨-, a, -, r, hr, -⟩
  · obtain ⟨r, hr, -⟩ := h.accepted
    exact ⟨r, hp.current.trans hr⟩
  · exact ⟨r, hr⟩

/-- What the test said of the row, and of the one that the last move came to. -/
theorem Shows.verdicts {test : RowTest} {pre post : List (Exchange (FilteredCursor RecordCursor))}
    {x : Exchange (FilteredCursor RecordCursor)} {c : RecordCursor} (h : Shows test pre x post c) :
    ∃ r, x.after.1.inner.current = some r ∧
      test.Says (RecordCursor.reading c.columns c.settings r) x.after.1.inner.state.row (.ok true) ∧
      ((∀ y ∈ post, ¬ y.slipped) → c.current = some r) ∧
      ((∃ y ∈ post, y.slipped) → ∃ r' a, c.current = some r' ∧ a ≠ .ok true ∧
        test.Says (RecordCursor.reading c.columns c.settings r') c.state.row a) := by
  obtain ⟨r, hr, hverdict⟩ := h.accepted
  rw [← h.columns.1, ← h.columns.2] at hverdict
  refine ⟨r, hr, hverdict, ?_, ?_⟩
  · intro hno
    rcases h.row with ⟨-, hp⟩ | ⟨⟨z, hz, hslip⟩, -⟩
    · exact hp.current.trans hr
    · exact absurd hslip (hno z hz)
  · rintro ⟨z, hz, hslip⟩
    rcases h.row with ⟨hno, -⟩ | ⟨-, a, ha, r', hr', hv⟩
    · exact absurd hslip (hno z hz)
    · exact ⟨r', a, hr', ha, hv⟩

/-- A move that failed before it moved the cursor under the filter, or after. -/
theorem next_failed (hlooks : f.test.Looks) (h : Settled f.inner) {e : Error}
    (he : CursorCall.next.answer (f, cl) = .error e) :
    (CursorCall.next.after (f, cl)).1.state = f.state ∧
    (¬ (Exchange.mk (f, cl) .next).slipped ∧
        SamePlace f.inner (CursorCall.next.after (f, cl)).1.inner ∨
      (Exchange.mk (f, cl) .next).slipped ∧ f.state.closed = false ∧
        WellPlaced (CursorCall.next.after (f, cl)).1.inner ∧
        ∃ a, a ≠ .ok true ∧ SaysHere f.test (CursorCall.next.after (f, cl)).1.inner a) := by
  have hrun : CursorCall.next.run (f, cl) = next (f, cl) := rfl
  have same : ∀ g t, CursorCall.next.run (f, cl) = .error e (g, t) →
      SamePlace f.inner g.inner → ¬ (Exchange.mk (f, cl) .next).slipped := by
    rintro g t hr hp ⟨-, hlt⟩
    rw [Exchange.after, after_error hr, hp.position] at hlt
    exact lt_irrefl _ hlt
  cases hc : f.state.closed with
  | true =>
    have hr : CursorCall.next.run (f, cl) = .error (.closed "cursor") (f, cl) := by
      rw [hrun]
      simp [next, bind_apply, CursorState.ensureOpen, hc]
    rw [answer_error hr] at he
    cases he
    refine ⟨by rw [after_error hr], .inl ⟨same _ _ hr (.refl _), ?_⟩⟩
    rw [after_error hr]
    exact .refl _
  | false =>
    rcases next_cases hlooks h hc cl with ⟨g, t, hn, -⟩ | ⟨g, t, hn, -⟩ |
        ⟨e', g, t, hn, -, hs, -, hwhere⟩
    · rw [answer_ok (hrun.trans hn)] at he
      cases he
    · rw [answer_ok (hrun.trans hn)] at he
      cases he
    · have hr := hrun.trans hn
      rw [answer_error hr] at he
      cases he
      rw [after_error hr]
      refine ⟨hs, ?_⟩
      rcases hwhere with hp | ⟨-, hpos, hw, hv⟩
      · exact .inl ⟨same g t hr hp, hp⟩
      · refine .inr ⟨⟨by rw [Exchange.error?_error hr]; rfl, ?_⟩, rfl, hw, hv⟩
        rw [Exchange.after, after_error hr]
        exact hpos

/-- The values read at one place are the same. -/
theorem getObject_samePlace {c d : RecordCursor} (h : SamePlace c d) (label : String)
    (cl cl' : Client) : (CursorCall.getObject label).answer (d, cl') =
      (CursorCall.getObject label).answer (c, cl) := by
  have hensure : (RowCursor.state d).ensureRow = (RowCursor.state c).ensureRow := by
    change d.state.ensureRow = c.state.ensureRow
    simp only [CursorState.ensureRow, CursorState.ensureOpen, h.closed, h.onRow]
  have hread : d.read label = c.read label := by
    simp only [RecordCursor.read, h.columns, h.settings, h.current]
  rw [RowCursor.getObject_answer, RowCursor.getObject_answer, hensure,
    RecordCursor.readValue_answer, RecordCursor.readValue_answer, hread]

/-- On a row of the cursor under the filter, its value is read. -/
theorem getObject_of_current {c : RecordCursor} (h : WellPlaced c) {r : Record}
    (hr : c.current = some r) (label : String) (cl : Client) :
    (CursorCall.getObject label).answer (c, cl) = c.read label := by
  rw [(RecordCursor.reads_of_current (s := (c, cl)) h hr).getObject,
    RecordCursor.read_of_current hr]

/-- Another row under the filter is read in place of the one there, if the
filtered cursor is on a row. -/
theorem Stands.same_iff {start f g : FilteredCursor RecordCursor}
    {xs : List (Exchange (FilteredCursor RecordCursor))} (h : Stands start xs f)
    (hopen : f.state.closed = false) (hstate : g.state = f.state) (hw : WellPlaced g.inner)
    {r' : Record} (hr' : g.inner.current = some r') (cl cl' : Client) :
    (∀ label, (CursorCall.getObject label).answer (g, cl') =
        (CursorCall.getObject label).answer (f, cl)) ↔
      (f.state.onRow = true → ∀ label, g.inner.read label = f.inner.read label) := by
  simp only [getObject_answer, hstate, getObject_of_current hw hr']
  rcases f.state.ensureRow_cases with ⟨-, hon, hrow⟩ | ⟨hclosed, -⟩ | ⟨-, hon, hrow⟩
  · obtain ⟨pre, y, post, -, hy⟩ := h.row hopen hon
    obtain ⟨r, hr⟩ := hy.current
    simp [hrow, hon, getObject_of_current hy.placed hr, bind, Except.bind]
  · cases hopen.symm.trans hclosed
  · simp [hrow, hon, bind, Except.bind]

/-- What a filtered cursor shows after calls, and what a failing move makes of
it. -/
structure Exposure (test : RowTest) (values : Record → String → Except Error Value)
    (xs : List (Exchange (FilteredCursor RecordCursor)))
    (s : FilteredCursor RecordCursor × Client) : Prop where
  /-- A failing move leaves the state, so the number of the row, as it was. -/
  state : ∀ e, CursorCall.next.answer s = .error e →
    (CursorCall.next.after s).1.state = s.1.state
  /-- It leaves all that can be read as it was, if it failed before it moved
  the cursor under the filter. -/
  kept : ∀ e, CursorCall.next.answer s = .error e → ¬ (Exchange.mk s .next).slipped →
    ∀ label, (CursorCall.getObject label).answer (CursorCall.next.after s) =
      (CursorCall.getObject label).answer s
  /-- Otherwise it does so exactly if the cursor is not on a row or the row
  under the filter, now one that the test did not accept, reads the same. -/
  changed : ∀ e, CursorCall.next.answer s = .error e → (Exchange.mk s .next).slipped →
    (∃ a, a ≠ .ok true ∧ SaysHere test (CursorCall.next.after s).1.inner a) ∧
    ((∀ label, (CursorCall.getObject label).answer (CursorCall.next.after s) =
        (CursorCall.getObject label).answer s) ↔
      (s.1.state.onRow = true → ∀ label,
        (CursorCall.next.after s).1.inner.read label = s.1.inner.read label))
  /-- What a getter reads is read from the row on which the last move to a row
  ended, which the test accepted, if no call slipped since, and else from a
  row that the test did not accept. -/
  shown : ∀ label v, (CursorCall.getObject label).answer s = .ok v → ∃ pre x post r,
    xs = pre ++ x :: post ∧ x.moved? = some true ∧ (∀ y ∈ post, y.moved? = none) ∧
    x.after.1.inner.current = some r ∧
    test.Says (values r) x.after.1.inner.state.row (.ok true) ∧
    ((∀ y ∈ post, ¬ y.slipped) → values r label = .ok v) ∧
    ((∃ y ∈ post, y.slipped) → ∃ r' a, s.1.inner.current = some r' ∧ a ≠ .ok true ∧
      test.Says (values r') s.1.inner.state.row a ∧ values r' label = .ok v)
  /-- Typed getters read what these getters read. -/
  typed : ∀ (α : Type) [Readable α] label, (CursorCall.get α label).answer s =
    (CursorCall.getObject label).answer s >>= (Readable.read : Value → Except Error α)

theorem Stands.exposure {start : FilteredCursor RecordCursor}
    {xs : List (Exchange (FilteredCursor RecordCursor))}
    {s : FilteredCursor RecordCursor × Client} (hlooks : start.test.Looks)
    (h : Stands start xs s.1) :
    Exposure start.test (RecordCursor.reading start.inner.columns start.inner.settings) xs s := by
  obtain ⟨f, cl⟩ := s
  have hlooks' : f.test.Looks := by rwa [h.test]
  refine ⟨fun e he => (next_failed hlooks' h.settled he).1, fun e he hnot label => ?_,
    fun e he hslip => ?_, fun label v hv => ?_, fun α _ label => RowCursor.get_answer α label _⟩
  · obtain ⟨hst, ⟨-, hp⟩ | ⟨hslip, -⟩⟩ := next_failed hlooks' h.settled he
    · rw [getObject_answer, getObject_answer, hst, getObject_samePlace hp label cl]
    · exact absurd hslip hnot
  · obtain ⟨hst, ⟨hnot, -⟩ | ⟨-, hopen, hw, a, ha, hverdict⟩⟩ := next_failed hlooks' h.settled he
    · exact absurd hslip hnot
    obtain ⟨r', hr', hsays⟩ := hverdict
    exact ⟨⟨a, ha, r', hr', h.test ▸ hsays⟩, h.same_iff hopen hst hw hr' _ _⟩
  · rw [getObject_answer] at hv
    rcases f.state.ensureRow_cases with ⟨hopen, hon, hrow⟩ | ⟨-, hrow⟩ | ⟨-, -, hrow⟩
    · obtain ⟨pre, y, post, rfl, hy⟩ := h.row hopen hon
      obtain ⟨r', hr'⟩ := hy.current
      simp only [hrow, getObject_of_current hy.placed hr', bind, Except.bind] at hv
      have hread : ∀ r, f.inner.current = some r →
          RecordCursor.reading start.inner.columns start.inner.settings r label = .ok v := by
        intro r hr
        rw [RecordCursor.read_of_current hr, h.columns.1, h.columns.2] at hv
        exact hv
      obtain ⟨r, hr, hverdict, hkept, hslipped⟩ := hy.verdicts
      rw [h.test, h.columns.1, h.columns.2] at hverdict hslipped
      refine ⟨pre, y, post, r, rfl, hy.moved, hy.since, hr, hverdict,
        fun hno => hread r (hkept hno), fun hslip => ?_⟩
      obtain ⟨r', a, hr', ha, hrefused⟩ := hslipped hslip
      exact ⟨r', a, hr', ha, hrefused, hread r' hr'⟩
    · rw [hrow] at hv
      cases hv
    · rw [hrow] at hv
      cases hv

/-- **What a filtered cursor shows after any calls, over any cursor on
records, new or used**, if its test only looks. -/
theorem exposure_of_calls (home : SetAddress) (columns : List Column) (settings : Settings)
    (stream : RecordStream) (fallback : Fallback) (metadata : Option ResultMetadata)
    (cl : Client) (used : List CursorCall) (test : RowTest) (hlooks : test.Looks)
    (calls : List CursorCall) :
    let start : RecordCursor := { home, columns, settings, stream, fallback, metadata }
    let inner := (afterAll (start, cl) used).1
    let s : FilteredCursor RecordCursor × Client := ({ inner, test }, (afterAll (start, cl) used).2)
    Exposure test (RecordCursor.reading inner.columns inner.settings) (exchanges s calls)
      (afterAll s calls) := by
  intro start inner s
  have hfresh : WellPlaced start := ⟨nofun, rfl, rfl, nofun⟩
  have hinner : Settled inner := RecordCursor.settled_of_calls (.inl hfresh) used
  have hstart : Stands s.1 [] s.1 :=
    ⟨hinner, rfl, ⟨rfl, rfl⟩, fun _ hon => by cases hon⟩
  have hstands : Stands s.1 (exchanges s calls) (afterAll s calls).1 :=
    stands_of_calls hlooks hstart s.2 calls
  exact hstands.exposure hlooks

/-- A failing move slips behind a refused row, so that the row under the filter is one
that the test did not accept, and reads otherwise. -/
theorem failing_move_slips :
    let row (n : Int64) : Event := .ok ⟨none, .ofList [("n", .int64 n)]⟩
    let inner : RecordCursor :=
      { home := ⟨"test", "people"⟩
        columns := [{ name := "n", schema := "test", table := "people" }]
        settings := {}
        stream := { pending := [row 5, row 1, .error (.storage "boom")] } }
    let test : RowTest := .compares .integer "n" .greater (.int64 3)
    let s := CursorCall.next.after
      (({ inner, test } : FilteredCursor RecordCursor), { store := .memory {} })
    test.Looks ∧ (Exchange.mk s .next).slipped ∧
      (∃ a, a ≠ .ok true ∧ SaysHere test (CursorCall.next.after s).1.inner a) ∧
      ¬ ∀ label, (CursorCall.getObject label).answer (CursorCall.next.after s) =
        (CursorCall.getObject label).answer s := by
  intro row inner test s
  have hlooks : test.Looks := RowTest.looks_value "n" fun _ => trivial
  have hslipped : (Exchange.mk s .next).slipped := ⟨rfl, by decide⟩
  have hexposure := exposure_of_calls inner.home inner.columns inner.settings inner.stream
    inner.fallback inner.metadata { store := .memory {} } [] test hlooks [.next]
  obtain ⟨hverdict, hsame⟩ := hexposure.changed (.storage "boom") rfl hslipped
  refine ⟨hlooks, hslipped, hverdict, fun hall => ?_⟩
  have hread : (.ok (.int64 1) : Except Error Value) = .ok (.int64 5) := hsame.mp hall rfl "n"
  simp at hread

/-- A move that meets a failure behind a refused row fails, and the getter
then reads the refused row in place of the accepted one. -/
theorem failing_move_shows_refused_row :
    let row (n : Int64) : Event := .ok ⟨none, .ofList [("n", .int64 n)]⟩
    let inner : RecordCursor :=
      { home := ⟨"test", "people"⟩
        columns := [{ name := "n", schema := "test", table := "people" }]
        settings := {}
        stream := { pending := [row 5, row 1, .error (.storage "boom")] } }
    let start : FilteredCursor RecordCursor :=
      { inner, test := .compares .integer "n" .greater (.int64 3) }
    let s := CursorCall.next.after (start, { store := .memory {} })
    CursorCall.next.answer (start, { store := .memory {} }) = .ok true ∧
      (CursorCall.getObject "n").answer s = .ok (.int64 5) ∧
      CursorCall.next.answer s = .error (.storage "boom") ∧
      (CursorCall.next.after s).1.state.row = s.1.state.row ∧
      (CursorCall.getObject "n").answer (CursorCall.next.after s) = .ok (.int64 1) := by
  refine ⟨rfl, rfl, rfl, rfl, rfl⟩

end FilteredCursor
end KeyedRows
