/-
# Under all filters

However many filters lie above a cursor, what they are asked for reaches it in
calls of its own (`CursorStack.bottom_after`), so what every call of it keeps is kept,
whatever the tests of the filters do. If all tests only look, it is driven
(`Cursor.driven_of_call`) and is closed together with its filters
(`Cursor.Uniform.after`). A test that closes it leaves the filters open, but the
other way round no filter is ever closed above an open cursor
(`Cursor.tight_of_call`).

Key definitions: `Cursor.base`, `Cursor.bottom`, `Cursor.reached`,
`CursorStack.Looks`, `CursorStack.Agrees`, `CursorStack.Tight`.
Key theorems: **`Cursor.bottom_after`**, **`Cursor.driven_of_call`**.
-/
import KeyedRows.Proofs.Cursor.Closing
import KeyedRows.Proofs.Cursor.Visits

namespace KeyedRows

open CursorM CursorCall

/-! ### Signs of a row -/

namespace RecordCursor

/-- A cursor over records is on a row when it has a record. -/
def OnRow (c : RecordCursor) : Prop := c.current.isSome = true

theorem readValue_after (label : String) (s : RecordCursor × Client) :
    (CursorCall.readValue label).after s = s := by
  have hrun : (CursorCall.readValue label).run s =
      (ofExcept (s.1.read label) : CursorM RecordCursor Value) s := rfl
  rw [CursorCall.after_eq, leaves, hrun]
  cases s.1.read label <;> rfl

/-- A move that finds a row stands on its record. -/
theorem onRow_of_next {s t : RecordCursor × Client} (h : next s = .ok true t) : OnRow t.1 := by
  obtain ⟨r, u, -, rfl⟩ := fetched_of_next h
  rfl

theorem tellsRow : TellsRow (fun _ => True) OnRow where
  keeps _ _ _ := trivial
  moved _ _ h := onRow_of_next (run_of_answer h)
  getObject s label h := by
    rcases RowCursor.getObject_after label s with hg | hg | ⟨v, hg⟩ <;> rw [hg]
    · exact h
    · rwa [readValue_after]
    · rw [readValue_after]
      exact h
  metadata s h := by
    rw [OnRow, (metadata_onRow h).1]
    exact h

end RecordCursor

namespace StaticCursor

/-- A cursor over given rows is on a row when it has one. -/
def OnRow (c : StaticCursor) : Prop := c.current.isSome = true

/-- A move that finds a row stands on it. -/
theorem onRow_of_next {s t : StaticCursor × Client} (h : next s = .ok true t) : OnRow t.1 := by
  obtain ⟨row, -, hcurrent⟩ := taken_of_next h
  rw [OnRow, hcurrent]
  rfl

theorem readValue_after (label : String) (s : StaticCursor × Client) :
    (CursorCall.readValue label).after s = s := by
  have hrun : (CursorCall.readValue label).run s =
      (ofExcept (s.1.read label) : CursorM StaticCursor Value) s := rfl
  rw [CursorCall.after_eq, leaves, hrun]
  cases s.1.read label <;> rfl

theorem metadata_after (s : StaticCursor × Client) : CursorCall.metadata.after s = s := by
  have hrun : CursorCall.metadata.run s = getMetadata s := rfl
  rw [CursorCall.after_eq, leaves, hrun]
  simp only [getMetadata, bind_apply, cursor_apply]
  cases s.1.state.ensureOpen <;> rfl

theorem tellsRow : TellsRow (fun _ => True) OnRow where
  keeps _ _ _ := trivial
  moved _ _ h := onRow_of_next (run_of_answer h)
  getObject s label h := by
    rcases RowCursor.getObject_after label s with hg | hg | ⟨v, hg⟩ <;> rw [hg]
    · exact h
    · rwa [readValue_after]
    · rw [readValue_after]
      exact h
  metadata s h := by rwa [metadata_after]

end StaticCursor

namespace BaseCursor

/-- A cursor without filters is on a row when it has one. -/
def OnRow (c : BaseCursor) : Prop := c.row.isSome = true

theorem onRow_record (c : RecordCursor) : OnRow (record c) ↔ c.OnRow := Iff.rfl

theorem onRow_static (c : StaticCursor) : OnRow (static c) ↔ c.OnRow := by
  rw [OnRow, row, Option.isSome_map]
  rfl

theorem tellsRow : TellsRow (fun _ => True) OnRow where
  keeps _ _ _ := trivial
  moved := by
    rintro ⟨c | c, cl⟩ - h
    · rw [carries_record.answer .next (c, cl)] at h
      rw [carries_record.after .next (c, cl), onRow_record]
      exact RecordCursor.tellsRow.moved (c, cl) trivial h
    · rw [carries_static.answer .next (c, cl)] at h
      rw [carries_static.after .next (c, cl), onRow_static]
      exact StaticCursor.tellsRow.moved (c, cl) trivial h
  getObject := by
    rintro ⟨c | c, cl⟩ label h
    · rw [carries_record.after (.getObject label) (c, cl), onRow_record]
      exact RecordCursor.tellsRow.getObject (c, cl) label h
    · rw [carries_static.after (.getObject label) (c, cl), onRow_static]
      exact StaticCursor.tellsRow.getObject (c, cl) label ((onRow_static c).mp h)
  metadata := by
    rintro ⟨c | c, cl⟩ h
    · rw [carries_record.after .metadata (c, cl), onRow_record]
      exact RecordCursor.tellsRow.metadata (c, cl) h
    · rw [carries_static.after .metadata (c, cl), onRow_static]
      exact StaticCursor.tellsRow.metadata (c, cl) ((onRow_static c).mp h)

end BaseCursor

/-! ### Stacks of filters -/

namespace CursorStack

/-- The cursor under all filters. -/
def base : (n : Nat) → CursorStack n → BaseCursor
  | 0, c => c
  | n + 1, f => base n (f : FilteredCursor (CursorStack n)).inner

/-- The cursor under all filters, and the client. -/
def bottom {n : Nat} (s : CursorStack n × Client) : BaseCursor × Client := (base n s.1, s.2)

/-- The calls that reach the cursor under all filters. -/
def reached : (n : Nat) → CursorStack n × Client → CursorCall → List CursorCall
  | 0, _, k => [k]
  | n + 1, s, k =>
    (exchanges (FilteredCursor.under (γ := CursorStack n) s)
      (FilteredCursor.passed (γ := CursorStack n) s k)).flatMap fun x => reached n x.before x.call

/-- The tests of all filters only look. -/
def Looks : (n : Nat) → CursorStack n → Prop
  | 0, _ => True
  | n + 1, f => (f : FilteredCursor (CursorStack n)).test.Looks ∧
      Looks n (f : FilteredCursor (CursorStack n)).inner

/-- The cursor and all filters above it are closed, or all are open. -/
def Agrees (closed : Bool) : (n : Nat) → CursorStack n → Prop
  | 0, c => (RowCursor.state (c : BaseCursor)).closed = closed
  | n + 1, f => (f : FilteredCursor (CursorStack n)).state.closed = closed ∧
      Agrees closed n (f : FilteredCursor (CursorStack n)).inner

/-- Each filter that is closed stands above a cursor that is closed. -/
def Tight : (n : Nat) → CursorStack n → Prop
  | 0, _ => True
  | n + 1, f => ((f : FilteredCursor (CursorStack n)).state.closed = true →
      (RowCursor.state (f : FilteredCursor (CursorStack n)).inner).closed = true) ∧
      Tight n (f : FilteredCursor (CursorStack n)).inner

/-! ### What reaches the cursor under all filters -/

/-- Calls reach the cursor under all filters one after the other, if each of them
does what reaches it. -/
theorem bottom_afterAll {n : Nat} (step : ∀ (s : CursorStack n × Client) (k : CursorCall),
    bottom (k.after s) = afterAll (bottom s) (reached n s k)) :
    ∀ (ks : List CursorCall) (s : CursorStack n × Client), bottom (afterAll s ks) =
      afterAll (bottom s) ((exchanges s ks).flatMap fun x => reached n x.before x.call)
  | [], _ => rfl
  | k :: ks, s => by
    rw [afterAll_cons, exchanges, List.flatMap_cons, afterAll_then, ← step]
    exact bottom_afterAll step ks (k.after s)

/-- **A call does to the cursor under all filters what reaches it.** -/
theorem bottom_after : ∀ {n : Nat} (s : CursorStack n × Client) (k : CursorCall),
    bottom (k.after s) = afterAll (bottom s) (reached n s k)
  | 0, _, _ => rfl
  | n + 1, s, k => by
    have hunder := FilteredCursor.under_after (γ := CursorStack n) k s
    have hpassed := bottom_afterAll (fun t k' => bottom_after t k')
      (FilteredCursor.passed (γ := CursorStack n) s k) (FilteredCursor.under s)
    rw [← hunder] at hpassed
    exact hpassed

/-- Giving up reaches the cursor under all filters. -/
theorem bottom_drop : ∀ {n : Nat} (s : CursorStack n × Client),
    bottom (leaves (drop n) s) = leaves BaseCursor.drop (bottom s)
  | 0, _ => rfl
  | n + 1, s => by
    have hunder := FilteredCursor.under_onInner (drop n) s
    have hrest := bottom_drop (FilteredCursor.under s)
    rw [← hunder] at hrest
    exact hrest

/-! ### Filters that only look -/

theorem tellsRow (n : Nat) : TellsRow (Looks n) fun c => (base n c).OnRow := by
  induction n with
  | zero => exact BaseCursor.tellsRow
  | succ n ih => exact FilteredCursor.tellsRow ih

/-- What drives the outermost cursor drives the one under all filters, if each call of
it does. -/
theorem driven_bottom {n : Nat} (step : ∀ {k : CursorCall}, k ≠ .close →
      ∀ {s : CursorStack n × Client}, Looks n s.1 →
        (k.asksMetadata = true → (bottom s).1.OnRow) →
        Driven BaseCursor.OnRow (bottom s) (reached n s k)) :
    ∀ {ks : List CursorCall} {s : CursorStack n × Client}, Looks n s.1 →
      Driven (fun c => (base n c).OnRow) s ks →
      Driven BaseCursor.OnRow (bottom s)
        ((exchanges s ks).flatMap fun x => reached n x.before x.call)
  | [], _, _, _ => driven_nil
  | k :: ks, s, hlooks, h => by
    obtain ⟨⟨hclose, hrow⟩, hrest⟩ := driven_cons.mp h
    have hlater := driven_bottom step ((tellsRow n).keeps s k hlooks) hrest
    rw [bottom_after] at hlater
    rw [exchanges, List.flatMap_cons]
    exact driven_then.mpr ⟨step hclose hlooks hrow, hlater⟩

/-- **What drives the outermost filter drives the cursor under all of them**, if their
tests only look. -/
theorem driven_of_call {k : CursorCall} (hclose : k ≠ .close) : ∀ {n : Nat}
    {s : CursorStack n × Client}, Looks n s.1 → (k.asksMetadata = true → (bottom s).1.OnRow) →
      Driven BaseCursor.OnRow (bottom s) (reached n s k)
  | 0, _, _, hk => driven_single hclose hk
  | n + 1, s, ⟨htest, hlooks⟩, hk => by
    have hinner := FilteredCursor.driven_of_call (tellsRow n) hclose (s := s) htest hlooks hk
    exact driven_bottom (fun hclose' _ => driven_of_call hclose') (s := FilteredCursor.under s)
      hlooks hinner

/-- **A cursor and its filters are closed together**, if they were so before. -/
theorem agrees_of_call {closed : Bool} {k : CursorCall} (hclose : k ≠ .close) : ∀ {n : Nat}
    {s : CursorStack n × Client}, Looks n s.1 → Agrees closed n s.1 → Agrees closed n (k.after s).1
  | 0, s, _, h => (LawfulCursor.closed_after (γ := BaseCursor) hclose s).trans h
  | n + 1, s, ⟨htest, hlooks⟩, ⟨hstate, hinner⟩ => by
    have hunder := FilteredCursor.under_after (γ := CursorStack n) k s
    have hdriven := FilteredCursor.driven_of_call (γ := CursorStack n) tellsRow_true hclose (s := s)
      htest trivial fun _ => trivial
    -- the calls that reach the cursor under the filter do not close it either
    have hkept := hdriven.keeps (P := fun t => Looks n t.1 ∧ Agrees closed n t.1)
      (fun t k' hc ht => ⟨(tellsRow n).keeps t k' ht.1, agrees_of_call hc ht.1 ht.2⟩)
      ⟨hlooks, hinner⟩
    rw [← hunder] at hkept
    exact ⟨(LawfulCursor.closed_after (γ := FilteredCursor (CursorStack n)) hclose s).trans hstate,
      hkept.2⟩

theorem agrees_of_close {closed : Bool} : ∀ {n : Nat} {s : CursorStack n × Client},
    Agrees closed n s.1 → Agrees true n (CursorCall.close.after s).1
  | 0, s, _ => LawfulCursor.closed_of_close (γ := BaseCursor) s
  | n + 1, s, ⟨hstate, hinner⟩ => by
    have hclosed := LawfulCursor.closed_of_close (γ := FilteredCursor (CursorStack n)) s
    have hunder := FilteredCursor.under_close (γ := CursorStack n) s
    have hrest : Agrees true n (FilteredCursor.under (γ := CursorStack n)
        (CursorCall.close.after (γ := FilteredCursor (CursorStack n)) s)).1 := by
      rw [hunder, hstate]
      cases closed with
      | true => exact hinner
      | false => exact agrees_of_close (s := FilteredCursor.under s) hinner
    exact ⟨hclosed, hrest⟩

/-! ### Filters with any tests -/

/-- **A closed filter stands above a closed cursor after every call**, whatever the
tests do. -/
theorem tight_of_call (k : CursorCall) : ∀ {n : Nat} {s : CursorStack n × Client},
    Tight n s.1 → Tight n (k.after s).1
  | 0, _, _ => trivial
  | n + 1, s, ⟨hfilter, hinner⟩ => by
    refine ⟨fun hclosed => ?_, FilteredCursor.keeps_under (γ := CursorStack n)
      (P := fun t => Tight n t.1) (fun _ k' ht => tight_of_call k' ht) hinner k⟩
    by_cases hbefore : s.1.state.closed = true
    · exact FilteredCursor.keeps_under (γ := CursorStack n)
        (P := fun t => (RowCursor.state t.1).closed = true)
        (fun _ k' ht => LawfulCursor.stays_closed ht k') (hfilter hbefore) k
    · by_cases hclose : k = .close
      · subst hclose
        have hunder := FilteredCursor.under_close (γ := CursorStack n) s
        rw [if_neg hbefore] at hunder
        have hnow := LawfulCursor.closed_of_close (FilteredCursor.under (γ := CursorStack n) s)
        rw [← hunder] at hnow
        exact hnow
      · have hsame := LawfulCursor.closed_after (γ := FilteredCursor (CursorStack n)) hclose s
        exact absurd (hsame.symm.trans hclosed) hbefore

/-- Under a closed filter the cursor is closed. -/
theorem Tight.base : ∀ {n : Nat} {c : CursorStack n}, Tight n c →
    (RowCursor.state c).closed = true → (RowCursor.state (CursorStack.base n c)).closed = true
  | 0, _, _, h => h
  | n + 1, _, ⟨hfilter, hinner⟩, h => Tight.base (n := n) hinner (hfilter h)

/-- Above an open cursor all filters are open. -/
theorem Tight.agrees : ∀ {n : Nat} {c : CursorStack n}, Tight n c →
    (RowCursor.state (CursorStack.base n c)).closed = false → Agrees false n c
  | 0, _, _, h => h
  | n + 1, c, ⟨hfilter, hinner⟩, h => by
    have hopen := Tight.agrees (n := n) hinner h
    refine ⟨?_, hopen⟩
    by_contra hclosed
    rw [Bool.not_eq_false] at hclosed
    cases (Tight.base (n := n) hinner (hfilter hclosed)).symm.trans h

/-- **Where all are open, the question for metadata** is answered by the cursor under
all filters. -/
theorem metadata_open : ∀ {n : Nat} {s : CursorStack n × Client}, Agrees false n s.1 →
    CursorCall.metadata.answer s = CursorCall.metadata.answer (bottom s) ∧
      bottom (CursorCall.metadata.after s) = CursorCall.metadata.after (bottom s)
  | 0, _, _ => ⟨rfl, rfl⟩
  | n + 1, s, ⟨hstate, hinner⟩ => by
    have hanswer := FilteredCursor.metadata_answer (γ := CursorStack n) (s := s) hstate
    have hunder := FilteredCursor.under_metadata (γ := CursorStack n) s
    rw [hstate, if_neg Bool.false_ne_true] at hunder
    obtain ⟨hanswer', hafter⟩ := metadata_open (s := FilteredCursor.under s) hinner
    rw [← hunder] at hafter
    exact ⟨hanswer.trans hanswer', hafter⟩

/-- The question for metadata is answered under all filters, or it is refused. -/
theorem metadata_answer_cases : ∀ {n : Nat} (s : CursorStack n × Client),
    CursorCall.metadata.answer s = CursorCall.metadata.answer (bottom s) ∨
      CursorCall.metadata.answer s = .error (.closed "cursor")
  | 0, _ => .inl rfl
  | n + 1, s => by
    by_cases hclosed : s.1.state.closed = true
    · exact .inr (answer_error (LawfulCursor.refused
        (γ := FilteredCursor (CursorStack n)) (k := .metadata) hclosed rfl))
    · have hopen : s.1.state.closed = false := by rwa [← Bool.not_eq_true]
      have hanswer := FilteredCursor.metadata_answer (γ := CursorStack n) (s := s) hopen
      have hinner := metadata_answer_cases (FilteredCursor.under (γ := CursorStack n) s)
      exact hinner.imp hanswer.trans hanswer.trans

/-- The outermost filter is closed if the cursor and its filters are. -/
theorem Agrees.state {closed : Bool} : ∀ {n : Nat} {c : CursorStack n}, Agrees closed n c →
    (RowCursor.state c).closed = closed
  | 0, _, h => h
  | _ + 1, _, h => h.1

theorem Agrees.base {closed : Bool} : ∀ {n : Nat} {c : CursorStack n}, Agrees closed n c →
    (RowCursor.state (CursorStack.base n c)).closed = closed
  | 0, _, h => h
  | n + 1, f, h => Agrees.base (n := n) (c := (f : FilteredCursor (CursorStack n)).inner) h.2

end CursorStack

namespace Cursor

/-- The cursor under all filters. -/
def base (c : Cursor) : BaseCursor := CursorStack.base c.filters c.stack

/-- The cursor under all filters, and the client. -/
def bottom (s : Cursor × Client) : BaseCursor × Client := (s.1.base, s.2)

/-- The calls that reach the cursor under all filters. -/
def reached (s : Cursor × Client) (k : CursorCall) : List CursorCall :=
  CursorStack.reached s.1.filters (s.1.stack, s.2) k

/-- The tests of all filters only look. -/
def Looks (c : Cursor) : Prop := CursorStack.Looks c.filters c.stack

/-- A cursor and all filters above it are closed, or all are open. -/
def Agrees (closed : Bool) (c : Cursor) : Prop := CursorStack.Agrees closed c.filters c.stack

/-- Each filter that is closed stands above a cursor that is closed. -/
def Tight (c : Cursor) : Prop := CursorStack.Tight c.filters c.stack

variable {k : CursorCall} {s : Cursor × Client}

theorem after_eq_mk (k : CursorCall) (s : Cursor × Client) :
    k.after s = (⟨s.1.filters, (k.after (s.1.stack, s.2)).1⟩, (k.after (s.1.stack, s.2)).2) :=
  (carries_mk s.1.filters).after k (s.1.stack, s.2)

/-- **A call does to the cursor under all filters what reaches it.** -/
theorem bottom_after (s : Cursor × Client) (k : CursorCall) :
    bottom (k.after s) = afterAll (bottom s) (reached s k) := by
  rw [after_eq_mk]
  exact CursorStack.bottom_after (s.1.stack, s.2) k

/-- The calls of the cursor under all filters that a call comes to. -/
def reaching (x : Exchange Cursor) : List (Exchange BaseCursor) :=
  exchanges (bottom x.before) (reached x.before x.call)

/-- **Calls do to the cursor under all filters what reaches it**, one after the
other. -/
theorem bottom_afterAll : ∀ (calls : List CursorCall) (s : Cursor × Client),
    bottom (afterAll s calls) =
      afterAll (bottom s) ((exchanges s calls).flatMap fun x => reached x.before x.call)
  | [], _ => rfl
  | k :: ks, s => by
    rw [afterAll_cons, exchanges, List.flatMap_cons, afterAll_then, ← bottom_after]
    exact bottom_afterAll ks (k.after s)

theorem bottom_drop (s : Cursor × Client) :
    bottom (leaves drop s) = leaves BaseCursor.drop (bottom s) := by
  have h := CursorStack.bottom_drop (s.1.stack, s.2)
  obtain ⟨⟨n, stack⟩, cl⟩ := s
  simp only [leaves, drop, onStack] at h ⊢
  cases hrun : CursorStack.drop n (stack, cl) <;> rw [hrun] at h <;> exact h

/-- **What every call of a cursor keeps**, every call keeps that is made above any
filters. -/
theorem bottom_keeps {P : BaseCursor × Client → Prop} (step : ∀ t (k : CursorCall), P t → P (k.after t))
    (h : P (bottom s)) (k : CursorCall) : P (bottom (k.after s)) := by
  rw [bottom_after]
  exact (exchanges_keep (fun t k' ht (_ : True) => step t k' ht) (reached s k) (bottom s) h
    fun _ _ => trivial).1

theorem bottom_of_calls {P : BaseCursor × Client → Prop}
    (step : ∀ t (k : CursorCall), P t → P (k.after t)) (h : P (bottom s))
    (calls : List CursorCall) : P (bottom (afterAll s calls)) :=
  (exchanges_keep (I := fun t => P (bottom t)) (fun _ k ht (_ : True) => bottom_keeps step ht k)
    calls s h fun _ _ => trivial).1

/-- **What drives a cursor drives the one under all its filters**, if their tests only
look. -/
theorem driven_of_call (hlooks : s.1.Looks) (hclose : k ≠ .close)
    (hk : k.asksMetadata = true → s.1.base.OnRow) :
    Driven BaseCursor.OnRow (bottom s) (reached s k) :=
  CursorStack.driven_of_call hclose (s := (s.1.stack, s.2)) hlooks hk

/-- The tests of all filters only look, and a cursor is closed with its filters, or open
with them. -/
structure Uniform (c : Cursor) : Prop where
  looks : c.Looks
  agrees : ∃ closed, c.Agrees closed

/-- **A cursor and its filters are closed together after every call.** -/
theorem Uniform.after (h : s.1.Uniform) (k : CursorCall) : (k.after s).1.Uniform := by
  obtain ⟨hlooks, closed, hagrees⟩ := h
  have hkept : (k.after s).1.Looks := by
    rw [after_eq_mk]
    exact (CursorStack.tellsRow s.1.filters).keeps (s.1.stack, s.2) k hlooks
  refine ⟨hkept, ?_⟩
  rw [after_eq_mk]
  by_cases hclose : k = .close
  · subst hclose
    exact ⟨true, CursorStack.agrees_of_close (s := (s.1.stack, s.2)) hagrees⟩
  · exact ⟨closed, CursorStack.agrees_of_call hclose (s := (s.1.stack, s.2)) hlooks hagrees⟩

theorem Uniform.of_calls (h : s.1.Uniform) (calls : List CursorCall) :
    (afterAll s calls).1.Uniform :=
  (exchanges_keep (I := fun t : Cursor × Client => t.1.Uniform)
    (fun _ k ht (_ : True) => ht.after k) calls s h fun _ _ => trivial).1

/-- Under an open cursor all is open. -/
theorem Uniform.agrees_of_open {c : Cursor} (h : c.Uniform)
    (hopen : (RowCursor.state c).closed = false) : c.Agrees false := by
  obtain ⟨closed, hagrees⟩ := h.agrees
  have hstate : (RowCursor.state c).closed = closed := CursorStack.Agrees.state hagrees
  rwa [← hstate, hopen] at hagrees

/-- **A closed filter stands above a closed cursor after every call.** -/
theorem tight_of_call (h : s.1.Tight) (k : CursorCall) : (k.after s).1.Tight := by
  rw [after_eq_mk]
  exact CursorStack.tight_of_call k (s := (s.1.stack, s.2)) h

theorem Tight.base {c : Cursor} (h : c.Tight) (hclosed : (RowCursor.state c).closed = true) :
    (RowCursor.state c.base).closed = true := CursorStack.Tight.base h hclosed

theorem Tight.agrees {c : Cursor} (h : c.Tight) (hopen : (RowCursor.state c.base).closed = false) :
    c.Agrees false := CursorStack.Tight.agrees h hopen

/-- **An open cursor answers with the metadata under its filters.** -/
theorem metadata_open (h : s.1.Agrees false) :
    CursorCall.metadata.answer s = CursorCall.metadata.answer (bottom s) ∧
      bottom (CursorCall.metadata.after s) = CursorCall.metadata.after (bottom s) := by
  have hanswer := (carries_mk s.1.filters).answer .metadata (s.1.stack, s.2)
  obtain ⟨hstack, hafter⟩ := CursorStack.metadata_open (s := (s.1.stack, s.2)) h
  refine ⟨hanswer.trans hstack, ?_⟩
  rw [after_eq_mk]
  exact hafter

theorem metadata_answer_cases (s : Cursor × Client) :
    CursorCall.metadata.answer s = CursorCall.metadata.answer (bottom s) ∨
      CursorCall.metadata.answer s = .error (.closed "cursor") := by
  have hwrapped := (carries_mk s.1.filters).answer .metadata (s.1.stack, s.2)
  exact (CursorStack.metadata_answer_cases (s.1.stack, s.2)).imp hwrapped.trans hwrapped.trans

theorem Agrees.base {closed : Bool} {c : Cursor} (h : c.Agrees closed) :
    (RowCursor.state c.base).closed = closed := CursorStack.Agrees.base h

end Cursor

end KeyedRows
