/-
# Under a filter

What a filtered cursor is asked for reaches the cursor under it in calls of its
own (`FilteredCursor.passed`): looking for an accepted row it moves and runs its
test, and most other calls it passes on. So what every call of the cursor under a
filter keeps is kept by every call of the filtered cursor, whatever its test does
(`under_after`). A test that only looks (`RowTest.Looks`) does not close that
cursor, and asks it for metadata on a row only. Apart from the closing so does the
filtered cursor, unless it is itself asked for metadata (`driven_of_call`).

Key definitions: `RowTest.Looks`, `RowTest.calls`, `FilteredCursor.under`,
`FilteredCursor.passed`, `Driven`, `TellsRow`.
Key theorems: **`under_after`**, **`driven_of_call`**.
-/
import Mathlib.Tactic.SplitIfs
import KeyedRows.Cursor.Filtered
import KeyedRows.Proofs.Cursor.Calls

namespace KeyedRows

open CursorM CursorCall

/-- A test that only looks at the row: it reads fields of it and its number, and
asks for metadata. -/
def RowTest.Looks : RowTest → Prop
  | .answer _ => True
  | .object _ rest => ∀ r, (rest r).Looks
  | .row rest => ∀ n, (rest n).Looks
  | .metadata rest => ∀ r, (rest r).Looks
  | .call _ _ => False

/-- A test of a value looks, if what it asks of the value does. -/
theorem RowTest.looks_value (label : String) {rest : Value → RowTest}
    (h : ∀ v, (rest v).Looks) : (value label rest).Looks
  | .ok v => h v
  | .error _ => trivial

/-- The call as one of all calls. -/
def RowCall.toCall : RowCall → CursorCall
  | next => .next
  | first => .first
  | close => .close
  | isLast => .isLast
  | readValue label => .readValue label
  | setFetchDirection d => .setFetchDirection d
  | clearWarnings => .clearWarnings
  | state => .state

section

variable {γ : Type} [RowCursor γ]

theorem RowCall.after_toCall (k : RowCall) (s : γ × Client) :
    k.toCall.after s = leaves k.run s := by
  rw [CursorCall.after_eq]
  cases k <;> rfl

/-! ### Calls that drive a cursor -/

/-- None of these calls closes the cursor, and they ask for metadata only on a
row. -/
def Driven (onRow : γ → Prop) (s : γ × Client) (ks : List CursorCall) : Prop :=
  ∀ x ∈ exchanges s ks, x.call ≠ .close ∧ (x.call.asksMetadata = true → onRow x.before.1)

/-- What makes it a sign that a cursor of this sort stands on a row: a move that
finds a row sets it, and reading the row and asking for metadata leave it. -/
structure TellsRow (sort onRow : γ → Prop) : Prop where
  keeps : ∀ s (k : CursorCall), sort s.1 → sort (k.after s).1
  moved : ∀ s, sort s.1 → CursorCall.next.answer s = .ok true → onRow (CursorCall.next.after s).1
  getObject : ∀ s label, onRow s.1 → onRow ((CursorCall.getObject label).after s).1
  metadata : ∀ s, onRow s.1 → onRow (CursorCall.metadata.after s).1

variable {sort onRow : γ → Prop} {s t : γ × Client} {k : CursorCall} {ks later : List CursorCall}

theorem driven_nil : Driven onRow s [] := nofun

theorem driven_cons : Driven onRow s (k :: ks) ↔
    (k ≠ .close ∧ (k.asksMetadata = true → onRow s.1)) ∧ Driven onRow (k.after s) ks :=
  List.forall_mem_cons

theorem driven_then : Driven onRow s (ks ++ later) ↔
    Driven onRow s ks ∧ Driven onRow (afterAll s ks) later := by
  rw [Driven, exchanges_then]
  exact List.forall_mem_append

/-- One call that is neither the closing nor asks for metadata. -/
theorem driven_single (hclose : k ≠ .close) (hasks : k.asksMetadata = true → onRow s.1) :
    Driven onRow s [k] :=
  driven_cons.mpr ⟨⟨hclose, hasks⟩, driven_nil⟩

/-- What every call but the closing keeps. -/
theorem Driven.keeps {P : γ × Client → Prop}
    (step : ∀ t (k : CursorCall), k ≠ .close → P t → P (k.after t)) :
    ∀ {ks : List CursorCall} {s : γ × Client}, Driven onRow s ks → P s → P (afterAll s ks)
  | [], _, _, hs => hs
  | _ :: _, _, h, hs => by
    obtain ⟨⟨hclose, -⟩, hrest⟩ := driven_cons.mp h
    exact hrest.keeps step (step _ _ hclose hs)

theorem TellsRow.keeps_all (h : TellsRow sort onRow) (hs : sort s.1) (ks : List CursorCall) :
    sort (afterAll s ks).1 :=
  (exchanges_keep (I := fun t : γ × Client => sort t.1) (fun t k ht (_ : True) => h.keeps t k ht)
    ks s hs fun _ _ => trivial).1

/-- Where every place counts as a row. -/
theorem tellsRow_true : TellsRow (fun _ : γ => True) fun _ => True :=
  ⟨fun _ _ _ => trivial, fun _ _ _ => trivial, fun _ _ _ => trivial, fun _ _ => trivial⟩

/-! ### Tests -/

namespace RowTest

theorem run_object (label : String) (next : Except Error Value → RowTest) (s : γ × Client) :
    (RowTest.object label next).run s =
      (next ((CursorCall.getObject label).answer s)).run ((CursorCall.getObject label).after s) := by
  rw [run, bind_apply]
  simp only [attempt, CursorCall.answer, CursorCall.after, CursorCall.run]
  cases RowCursor.getObject label s <;> rfl

theorem run_metadata (next : Except Error ResultMetadata → RowTest) (s : γ × Client) :
    (RowTest.metadata next).run s =
      (next (CursorCall.metadata.answer s)).run (CursorCall.metadata.after s) := by
  rw [run, bind_apply]
  simp only [attempt, CursorCall.answer, CursorCall.after, CursorCall.run]
  cases (RowCursor.metadata s : EStateM.Result Error (γ × Client) ResultMetadata) <;> rfl

theorem run_call (k : RowCall) (next : Except Error k.Result → RowTest) (s : γ × Client) :
    (RowTest.call k next).run s = (next (outcome k.run s)).run (k.toCall.after s) := by
  rw [run, bind_apply, RowCall.after_toCall]
  simp only [attempt, outcome, leaves]
  cases (k.run s : EStateM.Result Error (γ × Client) k.Result) <;> rfl

/-- The calls that a test makes, one after the other. -/
def calls : RowTest → γ × Client → List CursorCall
  | .answer _, _ => []
  | .object label rest, s =>
    .getObject label ::
      (rest ((CursorCall.getObject label).answer s)).calls ((CursorCall.getObject label).after s)
  | .row rest, s => (rest (RowCursor.state s.1).row).calls s
  | .metadata rest, s =>
    .metadata :: (rest (CursorCall.metadata.answer s)).calls (CursorCall.metadata.after s)
  | .call k rest, s => k.toCall :: (rest (outcome k.run s)).calls (k.toCall.after s)

/-- **A test does what its calls do.** -/
theorem leaves_run : ∀ (test : RowTest) (s : γ × Client),
    leaves test.run s = afterAll s (test.calls s)
  | .answer (.ok _), _ => rfl
  | .answer (.error _), _ => rfl
  | .object label rest, s => by
    rw [leaves, run_object]
    exact leaves_run (rest ((CursorCall.getObject label).answer s)) _
  | .row rest, s => leaves_run (rest (RowCursor.state s.1).row) s
  | .metadata rest, s => by
    rw [leaves, run_metadata]
    exact leaves_run (rest (CursorCall.metadata.answer s)) _
  | .call k rest, s => by
    rw [leaves, run_call]
    exact leaves_run (rest (outcome k.run s)) _

/-- **A test that looks drives the cursor and leaves it on its row.** -/
theorem driven_of_looks (h : TellsRow sort onRow) : ∀ {test : RowTest}, test.Looks →
    ∀ s : γ × Client, onRow s.1 →
      Driven onRow s (test.calls s) ∧ onRow (afterAll s (test.calls s)).1
  | .answer _, _, _, hs => ⟨driven_nil, hs⟩
  | .object label rest, hlooks, s, hs => by
    obtain ⟨hrest, hrow⟩ := driven_of_looks h (hlooks ((CursorCall.getObject label).answer s))
      ((CursorCall.getObject label).after s) (h.getObject s label hs)
    exact ⟨driven_cons.mpr ⟨⟨by simp, fun _ => hs⟩, hrest⟩, hrow⟩
  | .row _, hlooks, s, hs => driven_of_looks h (hlooks (RowCursor.state s.1).row) s hs
  | .metadata rest, hlooks, s, hs => by
    obtain ⟨hrest, hrow⟩ := driven_of_looks h (hlooks (CursorCall.metadata.answer s))
      (CursorCall.metadata.after s) (h.metadata s hs)
    exact ⟨driven_cons.mpr ⟨⟨by simp, fun _ => hs⟩, hrest⟩, hrow⟩
  | .call _ _, hlooks, _, _ => hlooks.elim

end RowTest

namespace FilteredCursor

/-! ### Looking for an accepted row -/

/-- A search moves, tests the row that it comes to, and goes on if the test refuses
it. -/
theorem seek_succ (test : RowTest) (moves : Nat) (s : γ × Client) : seek test (moves + 1) s =
    match CursorCall.next.run s with
    | .ok true t =>
      match test.run t with
      | .ok true u => .ok true u
      | .ok false u => seek test moves u
      | .error e u => .error e u
    | .ok false t => .ok false t
    | .error e t => .error e t := by
  simp only [seek, bind_apply, CursorCall.run]
  rcases (RowCursor.next s : EStateM.Result Error (γ × Client) Bool) with ⟨_ | _, t⟩ | ⟨e, t⟩
  · rfl
  · simp only [if_true, bind_apply]
    rcases (test.run t : EStateM.Result Error (γ × Client) Bool) with ⟨_ | _, u⟩ | ⟨e, u⟩ <;> rfl
  · rfl

/-- The calls of a search. -/
def seekCalls (test : RowTest) : Nat → γ × Client → List CursorCall
  | 0, _ => []
  | moves + 1, s =>
    .next ::
      match CursorCall.next.answer s with
      | .ok true =>
        let t := CursorCall.next.after s
        test.calls t ++
          match outcome test.run t with
          | .ok false => seekCalls test moves (afterAll t (test.calls t))
          | _ => []
      | _ => []

/-- **A search does what its calls do.** -/
theorem leaves_seek (test : RowTest) : ∀ (moves : Nat) (s : γ × Client),
    leaves (seek test moves) s = afterAll s (seekCalls test moves s)
  | 0, _ => rfl
  | moves + 1, s => by
    rw [leaves, seek_succ, seekCalls, afterAll_cons]
    rcases hn : (CursorCall.next.run s : EStateM.Result Error (γ × Client) Bool) with
      ⟨_ | _, t⟩ | ⟨e, t⟩
    · rw [answer_ok hn, after_ok hn]
      rfl
    · rw [answer_ok hn, after_ok hn]
      have htest := RowTest.leaves_run test t
      simp only [afterAll_then, ← htest]
      rcases hr : (test.run t : EStateM.Result Error (γ × Client) Bool) with ⟨_ | _, u⟩ | ⟨e, u⟩
      · rw [leaves_ok hr, outcome_ok hr]
        exact leaves_seek test moves u
      · rw [leaves_ok hr, outcome_ok hr]
        rfl
      · rw [leaves_error hr, outcome_error hr]
        rfl
    · rw [answer_error hn, after_error hn]
      rfl

/-- **A search for a row that a test accepts drives the cursor**, if the test only
looks, and ends on a row if it finds one. -/
theorem driven_of_seek (h : TellsRow sort onRow) {test : RowTest} (hlooks : test.Looks) :
    ∀ (moves : Nat) (s : γ × Client), sort s.1 → Driven onRow s (seekCalls test moves s) ∧
      ∀ t, seek test moves s = .ok true t → onRow t.1
  | 0, _, _ => ⟨driven_nil, fun _ ht => by cases ht⟩
  | moves + 1, s, hs => by
    have hrow := h.moved s hs
    have hkept := h.keeps s .next hs
    have hnext : CursorCall.next ≠ .close ∧ (CursorCall.next.asksMetadata = true → onRow s.1) :=
      ⟨by simp, by simp [asksMetadata]⟩
    rw [seekCalls, driven_cons, seek_succ]
    rcases hn : (CursorCall.next.run s : EStateM.Result Error (γ × Client) Bool) with
      ⟨_ | _, t⟩ | ⟨e, t⟩
    · rw [answer_ok hn]
      exact ⟨⟨hnext, driven_nil⟩, fun _ ht => by cases ht⟩
    · rw [answer_ok hn, after_ok hn] at hrow
      rw [after_ok hn] at hkept
      rw [answer_ok hn, after_ok hn]
      obtain ⟨hcalls, hstays⟩ := RowTest.driven_of_looks h hlooks t (hrow rfl)
      have hleft := RowTest.leaves_run test t
      rcases hr : (test.run t : EStateM.Result Error (γ × Client) Bool) with ⟨_ | _, u⟩ | ⟨e, u⟩
      · rw [leaves_ok hr] at hleft
        have hrest := driven_of_seek h hlooks moves u (hleft ▸ h.keeps_all hkept _)
        simp only [hr, outcome_ok hr, driven_then, ← hleft]
        exact ⟨⟨hnext, hcalls, hrest.1⟩, hrest.2⟩
      · rw [leaves_ok hr] at hleft
        simp only [hr, outcome_ok hr, driven_then]
        refine ⟨⟨hnext, hcalls, driven_nil⟩, fun v hv => ?_⟩
        cases hv
        exact hleft ▸ hstays
      · simp only [hr, outcome_error hr, driven_then]
        exact ⟨⟨hnext, hcalls, driven_nil⟩, fun _ ht => by cases ht⟩
    · rw [answer_error hn]
      exact ⟨⟨hnext, driven_nil⟩, fun _ ht => by cases ht⟩

/-! ### What reaches the cursor under the filter -/

/-- The cursor under the filter, and the client. -/
def under (s : FilteredCursor γ × Client) : γ × Client := (s.1.inner, s.2)

variable {f : FilteredCursor γ} {cl : Client}

omit [RowCursor γ] in
theorem onInner_ok {α : Type} {op : CursorM γ α} {a : α} {t : γ × Client}
    (h : op (f.inner, cl) = .ok a t) : onInner op (f, cl) = .ok a ({ f with inner := t.1 }, t.2) := by
  simp only [onInner, onPart, h]

omit [RowCursor γ] in
theorem onInner_error {α : Type} {op : CursorM γ α} {e : Error} {t : γ × Client}
    (h : op (f.inner, cl) = .error e t) :
    onInner op (f, cl) = .error e ({ f with inner := t.1 }, t.2) := by
  simp only [onInner, onPart, h]

/-- A call that is passed to the cursor under the filter. -/
theorem onInner_apply (k : CursorCall) (f : FilteredCursor γ) (cl : Client) :
    (onInner k.run : CursorM (FilteredCursor γ) k.Result) (f, cl) =
      match k.answer (f.inner, cl) with
      | .ok a => .ok a ({ f with inner := (k.after (f.inner, cl)).1 }, (k.after (f.inner, cl)).2)
      | .error e =>
        .error e ({ f with inner := (k.after (f.inner, cl)).1 }, (k.after (f.inner, cl)).2) := by
  cases h : k.run (f.inner, cl) with
  | ok a t => rw [onInner_ok h, answer_ok h, after_ok h]
  | error e t => rw [onInner_error h, answer_error h, after_error h]

/-- A move of a filtered cursor that is not after its rows. -/
theorem next_apply (hopen : f.state.closed = false) (hdone : f.state.done = false) :
    next (f, cl) = match seek f.test (RowCursor.remaining f.inner + 1) (f.inner, cl) with
      | .ok true t => .ok true ({ f with inner := t.1, state := f.state.advance }, t.2)
      | .ok false t => .ok false ({ f with inner := t.1, state := f.state.finish }, t.2)
      | .error e t => .error e ({ f with inner := t.1 }, t.2) := by
  unfold next
  simp only [bind_apply, cursor_apply, CursorState.ensureOpen, hopen, hdone, Bool.false_eq_true,
    if_false, ofExcept_ok]
  cases hr : seek f.test (RowCursor.remaining f.inner + 1) (f.inner, cl) with
  | ok b t =>
    simp only [onInner_ok hr]
    cases b <;> rfl
  | error e t => simp only [onInner_error hr]

theorem next_of_done (hopen : f.state.closed = false) (hdone : f.state.done = true) :
    next (f, cl) = .ok false (f, cl) := by
  unfold next
  simp only [bind_apply, cursor_apply, CursorState.ensureOpen, hopen, hdone, Bool.false_eq_true,
    if_false, if_true, ofExcept_ok]
  rfl

theorem next_closed (h : f.state.closed = true) (cl : Client) :
    next (f, cl) = .error (.closed "cursor") (f, cl) := by
  simp [next, bind_apply, CursorState.ensureOpen, h]

theorem getMetadata_closed (h : f.state.closed = true) (cl : Client) :
    getMetadata (f, cl) = .error (.closed "cursor") (f, cl) := by
  simp [getMetadata, bind_apply, CursorState.ensureOpen, h]

/-- An open filtered cursor passes the question for metadata on. -/
theorem getMetadata_apply (h : f.state.closed = false) (cl : Client) :
    getMetadata (f, cl) = onInner CursorCall.metadata.run (f, cl) := by
  simp only [getMetadata, bind_apply, cursor_apply, CursorState.ensureOpen, h, Bool.false_eq_true,
    if_false, ofExcept_ok]
  rfl

theorem close_closed (h : f.state.closed = true) (cl : Client) :
    close (f, cl) = .ok () (f, cl) := by
  simp [close, bind_apply, h]

/-- The first closing is passed on. -/
theorem close_apply (h : f.state.closed = false) (cl : Client) :
    close (f, cl) = onInner CursorCall.close.run ({ f with state := f.state.close }, cl) := by
  simp [close, bind_apply, h]
  rfl

omit [RowCursor γ] in
theorem state_onInner {α : Type} (op : CursorM γ α) (s : FilteredCursor γ × Client) :
    (leaves (onInner op) s).1.state = s.1.state := by
  obtain ⟨f, cl⟩ := s
  simp only [leaves]
  cases h : op (f.inner, cl) with
  | ok a t => rw [onInner_ok h]
  | error e t => rw [onInner_error h]

omit [RowCursor γ] in
theorem under_onInner {α : Type} (op : CursorM γ α) (s : FilteredCursor γ × Client) :
    under (leaves (onInner op) s) = leaves op (under s) := by
  obtain ⟨f, cl⟩ := s
  simp only [leaves, under]
  cases h : op (f.inner, cl) with
  | ok a t => rw [onInner_ok h]
  | error e t => rw [onInner_error h]

/-- A move to a row has found it. -/
theorem found_of_next {s t : FilteredCursor γ × Client} (h : next s = .ok true t) :
    seek s.1.test (RowCursor.remaining s.1.inner + 1) (under s) = .ok true (under t) := by
  obtain ⟨f, cl⟩ := s
  cases hclosed : f.state.closed with
  | true =>
    rw [next_closed hclosed] at h
    cases h
  | false =>
    cases hdone : f.state.done with
    | true =>
      rw [next_of_done hclosed hdone] at h
      cases h
    | false =>
      rw [next_apply hclosed hdone] at h
      rcases hseek : seek f.test (RowCursor.remaining f.inner + 1) (f.inner, cl) with
        ⟨_ | _, u⟩ | ⟨e, u⟩ <;> rw [hseek] at h <;> cases h
      exact hseek

/-- A move looks for an accepted row, unless the cursor is closed or after its
rows. -/
theorem under_next (s : FilteredCursor γ × Client) : under (CursorCall.next.after s) =
    if s.1.state.closed || s.1.state.done then under s
    else leaves (seek s.1.test (RowCursor.remaining s.1.inner + 1)) (under s) := by
  obtain ⟨f, cl⟩ := s
  have hrun : CursorCall.next.run (f, cl) = next (f, cl) := rfl
  cases hclosed : f.state.closed with
  | true =>
    rw [after_error (hrun.trans (next_closed hclosed cl))]
    rfl
  | false =>
    cases hdone : f.state.done with
    | true =>
      rw [after_ok (hrun.trans (next_of_done hclosed hdone))]
      rfl
    | false =>
      have happly := hrun.trans (next_apply hclosed hdone)
      simp only [CursorCall.after, happly, leaves, under, Bool.or_false, Bool.false_eq_true,
        if_false]
      cases seek f.test (RowCursor.remaining f.inner + 1) (f.inner, cl) with
      | ok b t => cases b <;> rfl
      | error e t => rfl

theorem under_metadata (s : FilteredCursor γ × Client) : under (CursorCall.metadata.after s) =
    if s.1.state.closed then under s else CursorCall.metadata.after (under s) := by
  obtain ⟨f, cl⟩ := s
  have hrun : CursorCall.metadata.run (f, cl) = getMetadata (f, cl) := rfl
  cases hclosed : f.state.closed with
  | true =>
    rw [after_error (hrun.trans (getMetadata_closed hclosed cl))]
    rfl
  | false =>
    rw [CursorCall.after_eq, leaves, hrun.trans (getMetadata_apply hclosed cl)]
    exact (under_onInner CursorCall.metadata.run (f, cl)).trans (CursorCall.after_eq ..).symm

/-- An open filtered cursor answers with the metadata under the filter. -/
theorem metadata_answer {s : FilteredCursor γ × Client} (h : s.1.state.closed = false) :
    CursorCall.metadata.answer s = CursorCall.metadata.answer (under s) := by
  obtain ⟨f, cl⟩ := s
  have hrun : CursorCall.metadata.run (f, cl) = getMetadata (f, cl) := rfl
  rw [CursorCall.answer, hrun.trans (getMetadata_apply h cl), onInner_apply]
  cases hm : CursorCall.metadata.answer (f.inner, cl) with
  | ok m => exact hm.symm
  | error e => exact hm.symm

theorem under_close (s : FilteredCursor γ × Client) : under (CursorCall.close.after s) =
    if s.1.state.closed then under s else CursorCall.close.after (under s) := by
  obtain ⟨f, cl⟩ := s
  have hrun : CursorCall.close.run (f, cl) = close (f, cl) := rfl
  cases hclosed : f.state.closed with
  | true =>
    rw [after_ok (hrun.trans (close_closed hclosed cl))]
    rfl
  | false =>
    rw [CursorCall.after_eq, leaves, hrun.trans (close_apply hclosed cl)]
    exact (under_onInner CursorCall.close.run ({ f with state := f.state.close }, cl)).trans
      (CursorCall.after_eq ..).symm

/-- Reading a value reads the field of the row under the filter. -/
theorem under_readValue (label : String) (s : FilteredCursor γ × Client) :
    under ((CursorCall.readValue label).after s) =
      (CursorCall.getObject label).after (under s) := by
  rw [CursorCall.after_eq, CursorCall.after_eq]
  exact under_onInner (CursorCall.getObject label).run s

/-- A getter reads the row under the filter, if the filtered cursor is on one. -/
theorem getObject_answer (label : String) (s : FilteredCursor γ × Client) :
    (CursorCall.getObject label).answer s =
      s.1.state.ensureRow >>= fun _ => (CursorCall.getObject label).answer (s.1.inner, s.2) := by
  obtain ⟨f, cl⟩ := s
  have hread : (CursorCall.readValue label).answer (f, cl) =
      (CursorCall.getObject label).answer (f.inner, cl) := by
    have hr : (CursorCall.readValue label).run (f, cl) =
        onInner (CursorCall.getObject label).run (f, cl) := rfl
    rw [CursorCall.answer, hr, onInner_apply]
    cases (CursorCall.getObject label).answer (f.inner, cl) <;> rfl
  rw [RowCursor.getObject_answer, hread]
  rfl

/-! ### What is passed on -/

/-- The calls of a move: those of a search, unless the cursor is closed or after its
rows. -/
def moveCalls (s : FilteredCursor γ × Client) : List CursorCall :=
  if s.1.state.closed || s.1.state.done then []
  else seekCalls s.1.test (RowCursor.remaining s.1.inner + 1) (under s)

/-- The calls of a getter: it reads the row under the filter, if the filtered cursor
is on one. -/
def readCalls (label : String) (s : FilteredCursor γ × Client) : List CursorCall :=
  match s.1.state.ensureRow with
  | .ok _ => [.getObject label]
  | .error _ => []

/-- The calls that reach the cursor under the filter. -/
def passed (s : FilteredCursor γ × Client) : CursorCall → List CursorCall
  | .next => moveCalls s
  | .first => if s.1.state.isBeforeFirst then moveCalls s else []
  | .close => if s.1.state.closed then [] else [.close]
  | .metadata => if s.1.state.closed then [] else [.metadata]
  | .findColumn _ => if s.1.state.closed then [] else [.metadata]
  | .readValue label => [.getObject label]
  | .getObject label => readCalls label s
  | @CursorCall.get _ _ label => readCalls label s
  | _ => []

theorem under_move (s : FilteredCursor γ × Client) :
    under (CursorCall.next.after s) = afterAll (under s) (moveCalls s) := by
  rw [under_next, moveCalls]
  split_ifs
  · rfl
  · exact leaves_seek s.1.test _ _

theorem under_first (s : FilteredCursor γ × Client) : under (CursorCall.first.after s) =
    afterAll (under s) (if s.1.state.isBeforeFirst then moveCalls s else []) := by
  obtain ⟨f, cl⟩ := s
  cases hclosed : f.state.closed with
  | true =>
    have hrun : CursorCall.first.run (f, cl) = .error (.closed "cursor") (f, cl) := by
      rw [CursorCall.run, RowCursor.first, bind_apply, RowCursor.ensureOpen_closed hclosed]
    have hnone : moveCalls (f, cl) = [] := if_pos (by simp [hclosed])
    rw [after_error hrun, hnone, ite_self]
    rfl
  | false =>
    have hrun : CursorCall.first.run (f, cl) = _ := RowCursor.first_apply hclosed
    by_cases hbefore : f.state.isBeforeFirst = true
    · have hmove : CursorCall.first.run (f, cl) = CursorCall.next.run (f, cl) :=
        hrun.trans (if_pos hbefore)
      rw [if_pos hbefore, ← under_move]
      exact congrArg under (RowCursor.first_same hmove).1
    · rw [after_error (hrun.trans (if_neg hbefore)), if_neg hbefore]
      rfl

theorem under_getObject (label : String) (s : FilteredCursor γ × Client) :
    under ((CursorCall.getObject label).after s) = afterAll (under s) (readCalls label s) := by
  obtain ⟨f, cl⟩ := s
  have hread := under_readValue label (f, cl)
  have hrun : (CursorCall.getObject label).run (f, cl) = _ := RowCursor.getObject_apply label
  rw [CursorCall.after, hrun, readCalls]
  rw [CursorCall.after, CursorCall.run] at hread
  change _ = afterAll _ (match (RowCursor.state f).ensureRow with
    | .ok _ => [CursorCall.getObject label]
    | .error _ => [])
  cases (RowCursor.state f).ensureRow with
  | error e => rfl
  | ok u =>
    -- noting what was read changes the filter, not the cursor under it
    cases hv : (RowCursor.readValue label (f, cl) : EStateM.Result Error _ Value) with
    | ok v t =>
      rw [hv] at hread
      exact hread
    | error e t =>
      rw [hv] at hread
      exact hread

/-- **A call of a filtered cursor does what it passes on.** -/
theorem under_after (k : CursorCall) (s : FilteredCursor γ × Client) :
    under (k.after s) = afterAll (under s) (passed s k) := by
  cases k with
  | next => exact under_move s
  | first => exact under_first s
  | close =>
    rw [under_close, passed]
    split_ifs <;> rfl
  | metadata =>
    rw [under_metadata, passed]
    split_ifs <;> rfl
  | findColumn label =>
    rw [RowCursor.findColumn_after, under_metadata, passed]
    split_ifs <;> rfl
  | readValue label => exact under_readValue label s
  | getObject label => exact under_getObject label s
  | get α label =>
    rw [RowCursor.get_after]
    exact under_getObject label s
  | setFetchDirection d =>
    rcases RowCursor.setFetchDirection_after d s with h | ⟨text, h⟩ <;> rw [h] <;> rfl
  | setFetchSize rows =>
    rw [RowCursor.setFetchSize_after]
    rfl
  | isLast | clearWarnings | scroll | state => rfl

/-- What every call of the cursor under the filter keeps. -/
theorem keeps_under {P : γ × Client → Prop} (step : ∀ t (k : CursorCall), P t → P (k.after t))
    {s : FilteredCursor γ × Client} (h : P (under s)) (k : CursorCall) : P (under (k.after s)) := by
  rw [under_after]
  exact (exchanges_keep (I := P) (fun t k ht (_ : True) => step t k ht) (passed s k) (under s) h
    fun _ _ => trivial).1

omit [RowCursor γ] in
theorem test_onInner {α : Type} (op : CursorM γ α) (s : FilteredCursor γ × Client) :
    (leaves (onInner op) s).1.test = s.1.test := by
  obtain ⟨f, cl⟩ := s
  simp only [leaves]
  cases h : op (f.inner, cl) with
  | ok a t => rw [onInner_ok h]
  | error e t => rw [onInner_error h]

theorem test_next (s : FilteredCursor γ × Client) :
    (CursorCall.next.after s).1.test = s.1.test := by
  obtain ⟨f, cl⟩ := s
  have hrun : CursorCall.next.run (f, cl) = next (f, cl) := rfl
  cases hclosed : f.state.closed with
  | true => rw [after_error (hrun.trans (next_closed hclosed cl))]
  | false =>
    cases hdone : f.state.done with
    | true => rw [after_ok (hrun.trans (next_of_done hclosed hdone))]
    | false =>
      rw [CursorCall.after, hrun.trans (next_apply hclosed hdone)]
      rcases seek f.test (RowCursor.remaining f.inner + 1) (f.inner, cl) with ⟨_ | _, t⟩ | ⟨e, t⟩ <;>
        rfl

theorem test_metadata (s : FilteredCursor γ × Client) :
    (CursorCall.metadata.after s).1.test = s.1.test := by
  obtain ⟨f, cl⟩ := s
  have hrun : CursorCall.metadata.run (f, cl) = getMetadata (f, cl) := rfl
  cases hclosed : f.state.closed with
  | true => rw [after_error (hrun.trans (getMetadata_closed hclosed cl))]
  | false =>
    rw [CursorCall.after_eq, leaves, hrun.trans (getMetadata_apply hclosed cl)]
    exact test_onInner CursorCall.metadata.run (f, cl)

theorem test_close (s : FilteredCursor γ × Client) :
    (CursorCall.close.after s).1.test = s.1.test := by
  obtain ⟨f, cl⟩ := s
  have hrun : CursorCall.close.run (f, cl) = close (f, cl) := rfl
  cases hclosed : f.state.closed with
  | true => rw [after_ok (hrun.trans (close_closed hclosed cl))]
  | false =>
    rw [CursorCall.after_eq, leaves, hrun.trans (close_apply hclosed cl)]
    exact test_onInner CursorCall.close.run ({ f with state := f.state.close }, cl)

/-- No call changes the test. -/
theorem test_after (k : CursorCall) (s : FilteredCursor γ × Client) :
    (k.after s).1.test = s.1.test := by
  by_cases hclose : k = .close
  · subst hclose
    exact test_close s
  · have hread (label : String) : ((CursorCall.readValue label).after s).1.test = s.1.test := by
      rw [CursorCall.after_eq]
      exact test_onInner (CursorCall.getObject label).run s
    exact RowCursor.leads_of_own (R := fun s t : FilteredCursor γ × Client => t.1.test = s.1.test)
      (fun _ => rfl) (fun h h' => h'.trans h) hclose (test_next s) (fun _ => test_metadata s) rfl
      hread fun _ _ _ => rfl

/-! ### Filters whose tests only look -/

/-- What is a sign of a row under the filter is one for the filtered cursor, if its
test only looks. -/
theorem tellsRow (h : TellsRow sort onRow) :
    TellsRow (fun f : FilteredCursor γ => f.test.Looks ∧ sort f.inner) fun f => onRow f.inner where
  keeps s k hs := by
    refine ⟨?_, keeps_under (P := fun t => sort t.1) h.keeps hs.2 k⟩
    rw [test_after]
    exact hs.1
  moved s hs hmoved := by
    have hfound := found_of_next (run_of_answer hmoved)
    exact (driven_of_seek h hs.1 _ _ hs.2).2 _ hfound
  getObject s label hs := by
    have hread : onRow (under s).1 := hs
    change onRow (under _).1
    rw [under_getObject, readCalls]
    cases s.1.state.ensureRow with
    | error e => exact hread
    | ok u => exact h.getObject _ _ hread
  metadata s hs := by
    have hask : onRow (under s).1 := hs
    change onRow (under _).1
    rw [under_metadata]
    cases s.1.state.closed
    · exact h.metadata _ hask
    · exact hask

theorem driven_move (h : TellsRow sort onRow) {s : FilteredCursor γ × Client}
    (hlooks : s.1.test.Looks) (hsort : sort s.1.inner) : Driven onRow (under s) (moveCalls s) := by
  rw [moveCalls]
  split_ifs
  · exact driven_nil
  · exact (driven_of_seek h hlooks _ _ hsort).1

theorem driven_read (label : String) (s : FilteredCursor γ × Client) :
    Driven onRow (under s) (readCalls label s) := by
  rw [readCalls]
  cases s.1.state.ensureRow with
  | error e => exact driven_nil
  | ok u => exact driven_single (by simp) (by simp [asksMetadata])

theorem driven_asked {s : FilteredCursor γ × Client} (hrow : onRow (under s).1) :
    Driven onRow (under s) (if s.1.state.closed then [] else [.metadata]) := by
  split_ifs
  · exact driven_nil
  · exact driven_single (by simp) fun _ => hrow

/-- **What drives a filtered cursor drives the cursor under it**, if its test only
looks. -/
theorem driven_of_call (h : TellsRow sort onRow) {k : CursorCall} (hclose : k ≠ .close)
    {s : FilteredCursor γ × Client} (hlooks : s.1.test.Looks) (hsort : sort s.1.inner)
    (hk : k.asksMetadata = true → onRow (under s).1) : Driven onRow (under s) (passed s k) := by
  cases k with
  | close => exact absurd rfl hclose
  | next => exact driven_move h hlooks hsort
  | first =>
    rw [passed]
    split_ifs
    · exact driven_move h hlooks hsort
    · exact driven_nil
  | metadata => exact driven_asked (hk rfl)
  | findColumn label => exact driven_asked (hk rfl)
  | readValue label => exact driven_single (by simp) (by simp [asksMetadata])
  | getObject label => exact driven_read label s
  | get α label => exact driven_read label s
  | setFetchDirection | setFetchSize | isLast | clearWarnings | scroll | state => exact driven_nil

end FilteredCursor

end

end KeyedRows
