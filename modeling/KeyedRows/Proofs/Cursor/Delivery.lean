/-
# How a record cursor delivers its stream

No order of calls skips or repeats an event. Every call moves to the first
record ahead, comes after the last one, takes the failure that comes first
and reports it, or only looks (`call_step`). So what the calls brought and what
lies ahead make up the stream, and the calls made so far say where the cursor
stands.

Key definitions: `Exchange.brought`, `Did`, `Step`, `Stands`, `Delivery`.
Key theorem: **`delivery_of_calls`**.
-/
import KeyedRows.Proofs.Cursor.Record

namespace KeyedRows

open CursorM CursorCall

namespace CursorCall

/-- The calls that may ask the stream. -/
def asksStream : CursorCall → Bool
  | next => true
  | first => true
  | metadata => true
  | findColumn _ => true
  | isLast => true
  | _ => false

/-- The failures of a call that do not come from the stream. -/
def Refuses (s : RecordCursor × Client) : CursorCall → Error → Prop
  | first, e => e = .forwardOnly "cannot rewind: first"
  | metadata, e => s.1.fallback.Fails s.2 e
  | findColumn label, e => s.1.fallback.Fails s.2 e ∨ e = .columnNotFound label
  | _, _ => False

end CursorCall

/-- What a call brought: the record of the row that it moved to, or the
failure that it took from the stream. -/
def Exchange.brought (x : Exchange RecordCursor) : Option Event :=
  if x.moved? = some true then x.after.1.current.map .ok
  else if (failures x.after.1.stream.events).length < (failures x.before.1.stream.events).length
    then x.error?.map .error
  else none

namespace RecordCursor

/-- The value of a label in a record. -/
def reading (columns : List Column) (settings : Settings) (r : Record) (label : String) :
    Except Error Value := do
  let (name, role) ← resolveLabel columns label
  return fieldOf settings r name role

/-- What a call did to the place and to what lies ahead. -/
inductive Did (x : Exchange RecordCursor) : Prop where
  | moved (r : Record) (answer : x.moved? = some true)
      (ahead : x.before.1.ahead = .ok r :: x.after.1.ahead) (current : x.after.1.current = some r)
      (state : x.after.1.state = x.before.1.state.advance)
  | ended (answer : x.moved? = some false) (before : x.before.1.ahead = [])
      (after : x.after.1.ahead = []) (current : x.after.1.current = none)
      (state : x.after.1.state = x.before.1.state.finish)
  | failed (e : Error) (asks : x.call.asksStream = true) (answer : x.error? = some e)
      (took : Took x.before.1 e x.after.1)
  | stayed (answer : x.moved? = none) (looked : Looked x.before.1 x.after.1)
      (refused : ∀ e, x.error? = some e → x.call.asksStream = true → Refuses x.before x.call e)

/-- What holds after a call of a cursor that is not closed. -/
structure Step (x : Exchange RecordCursor) : Prop where
  placed : WellPlaced x.after.1
  columns : x.after.1.columns = x.before.1.columns
  settings : x.after.1.settings = x.before.1.settings
  did : Did x

variable {c d : RecordCursor} {cl : Client} {k : CursorCall}

theorem Looked.step {s : RecordCursor × Client} (h : Looked s.1 (k.after s).1)
    (hk : k.moved? (k.answer s) = none)
    (href : ∀ e, (Exchange.mk s k).error? = some e → k.asksStream = true → Refuses s k e) :
    Step ⟨s, k⟩ :=
  ⟨h.placed, h.place.columns, h.place.settings, .stayed hk h href⟩

theorem Took.step {s t : RecordCursor × Client} {e : Error} (h : Took s.1 e t.1)
    (hr : k.run s = .error e t) (hasks : k.asksStream = true) : Step ⟨s, k⟩ := by
  rw [← after_error hr] at h
  exact ⟨h.placed, h.place.columns, h.place.settings, .failed e hasks (Exchange.error?_error hr) h⟩

/-- What a call that does not move did follows from what it ran to. -/
theorem Asked.step {s : RecordCursor × Client} (h : Asked s.1 (Refuses s k) (k.run s))
    (hk : ∀ a, k.moved? a = none) (hasks : k.asksStream = true) : Step ⟨s, k⟩ := by
  cases hr : k.run s with
  | ok a t =>
    rw [hr] at h
    refine Looked.step (after_ok hr ▸ h) (hk _) fun e he => ?_
    rw [Exchange.error?_ok hr] at he
    cases he
  | error e t =>
    rw [hr] at h
    rcases h with ht | ⟨hl, href⟩
    · exact ht.step hr hasks
    · refine Looked.step (after_error hr ▸ hl) (hk _) fun e' he _ => ?_
      rw [Exchange.error?_error hr] at he
      cases he
      exact href

/-- Noting what was read, or a warning, keeps the place. -/
theorem WellPlaced.looked_state (h : WellPlaced c) {st : CursorState}
    (hp : st.position = c.state.position) (hd : st.done = c.state.done)
    (hc : st.closed = c.state.closed) : Looked c { c with state := st } :=
  h.looked ⟨rfl, rfl, rfl, hp, hd, hc⟩ h.exhausted rfl

theorem getObject_looked (h : WellPlaced c) (label : String) :
    Looked c ((CursorCall.getObject label).after (c, cl)).1 := by
  unfold CursorCall.after
  rw [CursorCall.run, RowCursor.getObject_apply]
  cases (RowCursor.state c).ensureRow with
  | error e => exact .refl h
  | ok u =>
    have hr : RowCursor.readValue label (c, cl) =
        (ofExcept (c.read label) : CursorM RecordCursor Value) (c, cl) := rfl
    simp only [hr]
    cases c.read label with
    | error e => exact .refl h
    | ok v => exact h.looked_state rfl rfl rfl

/-- The calls that do not ask the stream keep the place. -/
theorem quiet_looked (h : WellPlaced c) (hk : k ≠ .close) (hq : k.asksStream = false) :
    Looked c (k.after (c, cl)).1 := by
  cases k with
  | next | first | metadata | findColumn | isLast => exact absurd hq (by simp [asksStream])
  | close => exact absurd rfl hk
  | readValue label =>
    have hr : (CursorCall.readValue label).run (c, cl) =
        (ofExcept (c.read label) : CursorM RecordCursor Value) (c, cl) := rfl
    unfold CursorCall.after
    rw [hr]
    cases c.read label <;> exact .refl h
  | getObject label => exact getObject_looked h label
  | get α label =>
    rw [RowCursor.get_after]
    exact getObject_looked h label
  | setFetchDirection d =>
    unfold CursorCall.after
    rw [CursorCall.run, RowCursor.setFetchDirection, bind_apply, RowCursor.ensureOpen_apply h.isOpen]
    simp only
    split_ifs
    · exact h.looked_state rfl rfl rfl
    · exact .refl h
  | setFetchSize rows =>
    unfold CursorCall.after
    rw [CursorCall.run, RowCursor.setFetchSize]
    split_ifs <;> exact .refl h
  | clearWarnings => exact h.looked_state rfl rfl rfl
  | scroll m => exact .refl h
  | state => exact .refl h

theorem next_step (h : WellPlaced c) : Step ⟨(c, cl), .next⟩ := by
  rcases next_cases h cl with ⟨r, d, hn, hd, ha, hc, hs, hcur, hst⟩ |
      ⟨d, hn, hd, h0, h0', hc, hs, hcur, hst⟩ | ⟨e, d, hn, ht, -⟩
  · have hr : CursorCall.next.run (c, cl) = .ok true (d, cl) := hn
    have hafter : (Exchange.mk (c, cl) .next).after = (d, cl) := after_ok hr
    refine ⟨?_, ?_, ?_, .moved r (Exchange.moved?_next hr) ?_ ?_ ?_⟩
    all_goals rw [hafter]; assumption
  · have hr : CursorCall.next.run (c, cl) = .ok false (d, cl) := hn
    have hafter : (Exchange.mk (c, cl) .next).after = (d, cl) := after_ok hr
    refine ⟨?_, ?_, ?_, .ended (Exchange.moved?_next hr) h0 ?_ ?_ ?_⟩
    all_goals rw [hafter]; assumption
  · have hr : CursorCall.next.run (c, cl) = .error e (d, cl) := hn
    exact ht.step hr rfl

/-- Where the first move is a move, it is the same step. -/
theorem first_step_of_next (hrun : CursorCall.first.run (c, cl) = CursorCall.next.run (c, cl))
    (h : Step ⟨(c, cl), .next⟩) : Step ⟨(c, cl), .first⟩ := by
  obtain ⟨hafter, hmoved, herror⟩ := RowCursor.first_same hrun
  obtain ⟨hd, hc, hs, did⟩ := h
  rw [← hafter] at hd hc hs
  refine ⟨hd, hc, hs, ?_⟩
  cases did with
  | moved r hm ha hcur hst =>
    rw [← hafter] at ha hcur hst
    exact .moved r (hmoved.trans hm) ha hcur hst
  | ended hm h0 h0' hcur hst =>
    rw [← hafter] at h0' hcur hst
    exact .ended (hmoved.trans hm) h0 h0' hcur hst
  | failed e _ he ht =>
    rw [← hafter] at ht
    exact .failed e rfl (herror.trans he) ht
  | stayed hm hl href =>
    rw [← hafter] at hl
    exact .stayed (hmoved.trans hm) hl fun e he _ => (href e (herror ▸ he) rfl).elim

/-- The first move is a move, or is refused. -/
theorem first_step (h : WellPlaced c) : Step ⟨(c, cl), .first⟩ := by
  have hrun : CursorCall.first.run (c, cl) = _ := RowCursor.first_apply h.isOpen
  split_ifs at hrun with hb
  · exact first_step_of_next hrun (next_step h)
  · have hl : Looked c (CursorCall.first.after (c, cl)).1 := by
      rw [after_error hrun]
      exact .refl h
    refine hl.step (by rw [answer_error hrun]; rfl) fun e he _ => ?_
    rw [Exchange.error?_error hrun] at he
    cases he
    rfl

theorem findColumn_asked (h : WellPlaced c) (label : String) (cl : Client) :
    Asked c (Refuses (c, cl) (.findColumn label))
      ((CursorCall.findColumn label).run (c, cl)) := by
  have hm : Asked c (c.fallback.Fails cl) (RowCursor.metadata (c, cl)) := getMetadata_asked h cl
  rw [CursorCall.run, RowCursor.findColumn_apply]
  cases hr : (RowCursor.metadata (c, cl) :
      EStateM.Result Error (RecordCursor × Client) ResultMetadata) with
  | ok m t =>
    rw [hr] at hm
    simp only [ResultMetadata.findColumn]
    cases m.visible.findIdx? fun c => c.displayLabel == label || c.name == label with
    | some i => exact hm
    | none => exact .inr ⟨hm, .inr rfl⟩
  | error e t =>
    rw [hr] at hm
    rcases hm with ht | ⟨hl, he⟩
    · exact .inl ht
    · exact .inr ⟨hl, .inl he⟩

/-- **Every call of an open cursor is one of four steps.** -/
theorem call_step (h : WellPlaced c) (hk : k ≠ .close) : Step ⟨(c, cl), k⟩ := by
  by_cases ha : k.asksStream = true
  · cases k with
    | next => exact next_step h
    | first => exact first_step h
    | metadata => exact (getMetadata_asked h cl).step (k := .metadata) (fun _ => rfl) rfl
    | findColumn label =>
      exact (findColumn_asked h label cl).step (k := .findColumn label) (fun _ => rfl) rfl
    | isLast =>
      refine Asked.step ?_ (fun _ => rfl) rfl
      have hrun : CursorCall.isLast.run (c, cl) = isLast (c, cl) := rfl
      rw [hrun]
      rcases isLast_cases h cl with ⟨b, d, hr, hl, -⟩ | ⟨e, d, hr, ht⟩
      · rw [hr]; exact hl
      · rw [hr]; exact .inl ht
    | _ => exact absurd ha (by simp [asksStream])
  · have hq : k.asksStream = false := by simpa using ha
    refine Looked.step (quiet_looked h hk hq) ?_ fun _ _ hasks => absurd hasks ha
    cases k with
    | next | first => exact absurd hq (by simp [asksStream])
    | _ => rfl

/-! ### What calls make of the stream -/

theorem failures_ahead (c : RecordCursor) : failures c.ahead = failures c.stream.events := by
  unfold ahead
  cases c.replay <;> rfl

/-- The failure that a call takes is what it brings. -/
theorem Took.brought {x : Exchange RecordCursor} {e : Error} (h : Took x.before.1 e x.after.1)
    (he : x.error? = some e) : x.brought = some (.error e) := by
  have hlt : (failures x.after.1.stream.events).length <
      (failures x.before.1.stream.events).length := by
    rw [← failures_ahead, ← failures_ahead, h.ahead, failures_error_cons, List.length_cons]
    omega
  simp [Exchange.brought, Exchange.moved?_of_error he, hlt, he]

/-- A call that takes nothing and moves to no row brings nothing. -/
theorem brought_none {x : Exchange RecordCursor} (hm : x.moved? ≠ some true)
    (ha : x.after.1.ahead = x.before.1.ahead) : x.brought = none := by
  rw [Exchange.brought, if_neg hm, if_neg]
  rw [← failures_ahead, ← failures_ahead, ha]
  omega

/-- **What a call brought and what it leaves ahead is what lay ahead of it.** -/
theorem Step.ledger {x : Exchange RecordCursor} (h : Step x) :
    x.brought.toList ++ x.after.1.ahead = x.before.1.ahead := by
  cases h.did with
  | moved r hm ha hcur _ => simp [Exchange.brought, hm, hcur, ha]
  | ended hm h0 h0' _ _ => rw [brought_none (by simp [hm]) (h0'.trans h0.symm), h0, h0']; rfl
  | failed e _ he ht => rw [ht.brought he, ht.ahead]; rfl
  | stayed hm hl _ => rw [brought_none (by simp [hm]) hl.ahead, hl.ahead]; rfl

/-- A call brings a record exactly when it moves to a row, and any other call
that does not end the rows keeps the row. -/
theorem Step.row_cases {x : Exchange RecordCursor} (h : Step x) :
    (∃ r, x.moved? = some true ∧ x.brought = some (.ok r) ∧ x.after.1.current = some r ∧
      x.after.1.state.position = x.before.1.state.position + 1) ∨
    (x.moved? = some false ∧ records x.brought.toList = [] ∧ x.after.1.current = none ∧
      x.after.1.state.position = x.before.1.state.position) ∨
    (x.moved? = none ∧ records x.brought.toList = [] ∧
      x.after.1.current = x.before.1.current ∧
      x.after.1.state.position = x.before.1.state.position) := by
  cases h.did with
  | moved r hm ha hcur hst =>
    exact .inl ⟨r, hm, by simp [Exchange.brought, hm, hcur], hcur, by rw [hst]; rfl⟩
  | ended hm h0 h0' hcur hst =>
    refine .inr (.inl ⟨hm, ?_, hcur, by rw [hst]; rfl⟩)
    rw [brought_none (by simp [hm]) (h0'.trans h0.symm)]
    rfl
  | failed e _ he ht =>
    refine .inr (.inr ⟨Exchange.moved?_of_error he, ?_, ht.place.current, ht.place.position⟩)
    rw [ht.brought he]
    rfl
  | stayed hm hl _ =>
    refine .inr (.inr ⟨hm, ?_, hl.place.current, hl.place.position⟩)
    rw [brought_none (by simp [hm]) hl.ahead]
    rfl

/-- Where calls leave a cursor, told from what they brought. -/
structure Stands (start : RecordCursor) (xs : List (Exchange RecordCursor)) (c : RecordCursor) :
    Prop where
  placed : WellPlaced c
  columns : c.columns = start.columns
  settings : c.settings = start.settings
  ledger : xs.filterMap Exchange.brought ++ c.ahead = start.ahead
  position : c.state.position = moves xs
  counted : (records (xs.filterMap Exchange.brought)).length = moves xs
  current : c.current =
    if lastMove xs = some true then (records (xs.filterMap Exchange.brought)).getLast? else none

theorem records_append (l₁ l₂ : List Event) : records (l₁ ++ l₂) = records l₁ ++ records l₂ :=
  List.filterMap_append

theorem Stands.step {start : RecordCursor} {xs : List (Exchange RecordCursor)}
    {x : Exchange RecordCursor} (h : Stands start xs x.before.1) (hx : Step x) :
    Stands start (xs ++ [x]) x.after.1 := by
  have hbrought : (xs ++ [x]).filterMap Exchange.brought =
      xs.filterMap Exchange.brought ++ x.brought.toList := by
    cases hb : x.brought <;> simp [hb]
  have hledger : (xs ++ [x]).filterMap Exchange.brought ++ x.after.1.ahead = start.ahead := by
    rw [hbrought, List.append_assoc, hx.ledger, h.ledger]
  obtain ⟨hposition, hcounted, hcurrent⟩ : x.after.1.state.position = moves (xs ++ [x]) ∧
      (records ((xs ++ [x]).filterMap Exchange.brought)).length = moves (xs ++ [x]) ∧
      x.after.1.current = if lastMove (xs ++ [x]) = some true then
        (records ((xs ++ [x]).filterMap Exchange.brought)).getLast? else none := by
    rw [hbrought, records_append, moves_append, lastMove_append, List.length_append, h.counted,
      ← h.position]
    rcases hx.row_cases with ⟨r, hm, hb, hcur, hpos⟩ | ⟨hm, hb, hcur, hpos⟩ |
        ⟨hm, hb, hcur, hpos⟩
    · simp [hm, hb, hcur, hpos, records]
    · simp [hm, hb, hcur, hpos]
    · simp [hm, hb, hcur, hpos, h.current]
  exact ⟨hx.placed, hx.columns.trans h.columns, hx.settings.trans h.settings, hledger, hposition,
    hcounted, hcurrent⟩

/-- Calls that do not close keep it. -/
theorem stands_of_calls {start : RecordCursor} (h : Stands start [] start) (cl : Client)
    (calls : List CursorCall) (hk : ∀ k ∈ calls, k ≠ .close) :
    Stands start (exchanges (start, cl) calls) (afterAll (start, cl) calls).1 := by
  induction calls using List.reverseRecOn with
  | nil => exact h
  | append_singleton ks k ih =>
    have hks := ih fun k' hk' => hk k' (List.mem_append_left _ hk')
    rw [exchanges_append, afterAll_append]
    exact Stands.step (x := ⟨afterAll (start, cl) ks, k⟩) hks (call_step hks.placed (hk k (by simp)))

/-! ### What is read and what is answered -/

theorem readValue_answer (label : String) :
    (CursorCall.readValue label).answer (c, cl) = c.read label := by
  have hr : (CursorCall.readValue label).run (c, cl) =
      (ofExcept (c.read label) : CursorM RecordCursor Value) (c, cl) := rfl
  simp only [CursorCall.answer, hr]
  cases c.read label <;> rfl

/-- An open cursor stands on a row exactly when it has one. -/
theorem WellPlaced.ensureRow (h : WellPlaced c) :
    c.state.ensureRow = if c.current.isSome then .ok () else .error .outsideRow := by
  rw [← h.onRow]
  simp only [CursorState.ensureRow, CursorState.ensureOpen, h.isOpen]
  rfl

theorem read_of_current {r : Record} (hr : c.current = some r) (label : String) :
    c.read label = reading c.columns c.settings r label := by
  simp only [read, reading, hr]

theorem reads_of_current {s : RecordCursor × Client} (h : WellPlaced s.1) {r : Record}
    (hr : s.1.current = some r) : Reads s (reading s.1.columns s.1.settings r) := by
  obtain ⟨c, cl⟩ := s
  have hrow : (RowCursor.state c).ensureRow = .ok () := by
    rw [show (RowCursor.state c).ensureRow = _ from h.ensureRow, hr]
    rfl
  refine RowCursor.reads_of_readValue hrow fun label => ?_
  rw [readValue_answer, read_of_current hr]

/-- No getter reads a value. -/
structure ReadsNothing (s : RecordCursor × Client) : Prop where
  readValue : ∀ label, ∃ e, (CursorCall.readValue label).answer s = .error e
  getObject : ∀ label, (CursorCall.getObject label).answer s = .error .outsideRow
  get : ∀ (α : Type) [Readable α] label, (CursorCall.get α label).answer s = .error .outsideRow

theorem readsNothing_of_current {s : RecordCursor × Client} (h : WellPlaced s.1)
    (hn : s.1.current = none) : ReadsNothing s := by
  obtain ⟨c, cl⟩ := s
  have hobj : ∀ label, (CursorCall.getObject label).answer (c, cl) = .error .outsideRow := by
    intro label
    rw [RowCursor.getObject_answer, show (RowCursor.state c).ensureRow = _ from h.ensureRow, hn]
    rfl
  refine ⟨fun label => ?_, hobj, fun α _ label => ?_⟩
  · rw [readValue_answer]
    simp only [read, show c.current = none from hn]
    cases resolveLabel c.columns label with
    | ok p => exact ⟨_, rfl⟩
    | error e => exact ⟨e, rfl⟩
  · rw [RowCursor.get_answer, hobj]
    rfl

/-- Nothing lies ahead of a cursor that finds no next row. -/
theorem next_answer_false {s : RecordCursor × Client} (h : WellPlaced s.1) :
    CursorCall.next.answer s = .ok false ↔ s.1.ahead = [] := by
  obtain ⟨c, cl⟩ := s
  rcases next_cases h cl with ⟨r, d, hn, -, ha, -⟩ | ⟨d, hn, -, h0, -⟩ | ⟨e, d, hn, ht, -⟩
  · have hr : CursorCall.next.run (c, cl) = .ok true (d, cl) := hn
    simp [answer_ok hr, ha]
  · have hr : CursorCall.next.run (c, cl) = .ok false (d, cl) := hn
    simp [answer_ok hr, h0]
  · have hr : CursorCall.next.run (c, cl) = .error e (d, cl) := hn
    simp [answer_error hr, ht.ahead]

theorem isLast_answer_true {s : RecordCursor × Client} (h : WellPlaced s.1) :
    CursorCall.isLast.answer s = .ok true ↔ s.1.state.onRow = true ∧ s.1.ahead = [] := by
  obtain ⟨c, cl⟩ := s
  rcases isLast_cases h cl with ⟨b, d, hi, -, hb⟩ | ⟨e, d, hi, ht⟩
  · have hr : CursorCall.isLast.run (c, cl) = .ok b (d, cl) := hi
    rw [answer_ok hr, ← hb]
    simp
  · have hr : CursorCall.isLast.run (c, cl) = .error e (d, cl) := hi
    simp [answer_error hr, ht.ahead]

/-- A call that asks the stream fails with the failure that it takes, or
refuses. -/
theorem Step.error_cases {x : Exchange RecordCursor} {e : Error} (h : Step x)
    (hasks : x.call.asksStream = true) (he : x.error? = some e) :
    Took x.before.1 e x.after.1 ∨ Refuses x.before x.call e := by
  cases h.did with
  | moved r hm => rw [Exchange.moved?_of_error he] at hm; cases hm
  | ended hm => rw [Exchange.moved?_of_error he] at hm; cases hm
  | failed e' _ he' ht =>
    rw [he'] at he
    cases he
    exact .inl ht
  | stayed _ _ href => exact .inr (href e he hasks)

/-- The failure that a call brought is its answer, and the row stays. -/
theorem Step.failure {x : Exchange RecordCursor} {e : Error} (h : Step x)
    (hb : x.brought = some (.error e)) :
    x.call.asksStream = true ∧ x.error? = some e ∧ Took x.before.1 e x.after.1 := by
  cases h.did with
  | moved r hm ha hcur => simp [Exchange.brought, hm, hcur] at hb
  | ended hm h0 h0' => rw [brought_none (by simp [hm]) (h0'.trans h0.symm)] at hb; cases hb
  | failed e' hasks he ht =>
    rw [ht.brought he] at hb
    cases hb
    exact ⟨hasks, he, ht⟩
  | stayed hm hl => rw [brought_none (by simp [hm]) hl.ahead] at hb; cases hb

/-- What calls made of a stream of events, and what any next call makes of
it. -/
structure Delivery (events : List Event) (values : Record → String → Except Error Value)
    (xs : List (Exchange RecordCursor)) (s : RecordCursor × Client) : Prop where
  /-- What was brought, in order, and what lies ahead make up the stream. -/
  ledger : xs.filterMap Exchange.brought ++ s.1.ahead = events
  /-- Every move to a row brought a record, and the row number counts them. -/
  position : s.1.state.position = moves xs ∧
    (records (xs.filterMap Exchange.brought)).length = moves xs
  /-- After the k-th move to a row, the getters read the k-th record until a
  later move is answered. -/
  row : lastMove xs = some true → 0 < moves xs ∧
    ∃ r, (records events)[moves xs - 1]? = some r ∧ Reads s (values r)
  outside : lastMove xs ≠ some true → ReadsNothing s
  onRow : s.1.state.onRow = true ↔ lastMove xs = some true
  /-- A failure of the stream is the answer of a call that asks the stream,
  and the row stays. -/
  failure : ∀ k e, k ≠ .close → (Exchange.mk s k).brought = some (.error e) →
    k.asksStream = true ∧ k.answer s = .error e ∧
      (k.after s).1.state.position = s.1.state.position ∧
      (k.after s).1.state.onRow = s.1.state.onRow ∧ (k.after s).1.current = s.1.current
  /-- Such a call has no other failures than the stream's and its own. -/
  refusal : ∀ k e, k.asksStream = true → k.answer s = .error e →
    (Exchange.mk s k).brought = some (.error e) ∨ Refuses s k e
  /-- No next row is found only when all was brought. -/
  complete : CursorCall.next.answer s = .ok false ↔ xs.filterMap Exchange.brought = events
  last : CursorCall.isLast.answer s = .ok true ↔
    s.1.state.onRow = true ∧ CursorCall.next.answer s = .ok false

/-- Where the last move was to a row, that row is the record at its place in
the stream. -/
theorem Stands.row {start : RecordCursor} {xs : List (Exchange RecordCursor)} {c : RecordCursor}
    (h : Stands start xs c) (hm : lastMove xs = some true) :
    ∃ r, (records start.ahead)[moves xs - 1]? = some r ∧ c.current = some r := by
  have hpos := moves_pos hm
  have hlt : moves xs - 1 < (records (xs.filterMap Exchange.brought)).length := by
    rw [h.counted]
    omega
  refine ⟨(records (xs.filterMap Exchange.brought))[moves xs - 1], ?_, ?_⟩
  · rw [← h.ledger, records_append, List.getElem?_append_left hlt, List.getElem?_eq_getElem hlt]
  · rw [h.current, if_pos hm, List.getLast?_eq_getElem?, h.counted, List.getElem?_eq_getElem hlt]

theorem Stands.onRow {start : RecordCursor} {xs : List (Exchange RecordCursor)} {c : RecordCursor}
    (h : Stands start xs c) : c.state.onRow = true ↔ lastMove xs = some true := by
  rw [h.placed.onRow]
  by_cases hm : lastMove xs = some true
  · obtain ⟨r, -, hr⟩ := h.row hm
    simp [hr, hm]
  · simp [h.current, hm]

theorem Stands.delivery {start : RecordCursor} {xs : List (Exchange RecordCursor)}
    {s : RecordCursor × Client} (h : Stands start xs s.1) :
    Delivery start.ahead (reading start.columns start.settings) xs s := by
  have hcomplete : s.1.ahead = [] ↔ xs.filterMap Exchange.brought = start.ahead := by
    rw [← h.ledger]
    exact List.self_eq_append_right.symm
  refine ⟨h.ledger, ⟨h.position, h.counted⟩, fun hm => ?_, fun hm => ?_, h.onRow,
    fun k e hk hb => ?_, fun k e hasks he => ?_, ?_, ?_⟩
  · obtain ⟨r, hr, hcur⟩ := h.row hm
    refine ⟨moves_pos hm, r, hr, ?_⟩
    rw [← h.columns, ← h.settings]
    exact reads_of_current h.placed hcur
  · exact readsNothing_of_current h.placed (by rw [h.current, if_neg hm])
  · obtain ⟨hasks, he, ht⟩ := (call_step h.placed hk).failure hb
    exact ⟨hasks, Exchange.error?_eq_some.mp he, ht.place.position, ht.place.onRow, ht.place.current⟩
  · have hk : k ≠ .close := by
      rintro rfl
      cases hasks
    have he' : (Exchange.mk s k).error? = some e := Exchange.error?_eq_some.mpr he
    rcases (call_step h.placed hk).error_cases hasks he' with ht | href
    · exact .inl (ht.brought he')
    · exact .inr href
  · rw [next_answer_false h.placed, hcomplete]
  · rw [isLast_answer_true h.placed, next_answer_false h.placed]

/-- **No order of calls without a close skips or repeats a row, or loses or
repeats a failure.** -/
theorem delivery_of_calls (home : SetAddress) (columns : List Column) (settings : Settings)
    (stream : RecordStream) (fallback : Fallback) (metadata : Option ResultMetadata)
    (cl : Client) (calls : List CursorCall) (hk : ∀ k ∈ calls, k ≠ .close) :
    let start : RecordCursor := { home, columns, settings, stream, fallback, metadata }
    Delivery stream.events (reading columns settings) (exchanges (start, cl) calls)
      (afterAll (start, cl) calls) := by
  intro start
  have hstart : Stands start [] start :=
    ⟨⟨nofun, rfl, rfl, nofun⟩, rfl, rfl, rfl, rfl, rfl, rfl⟩
  exact (stands_of_calls hstart cl calls hk).delivery

/-- Looking for the last row meets the failure between the two rows, and then
keeps the second for the next move. -/
theorem delivery_across_failure :
    let a : Record := ⟨none, .ofList [("n", .int64 1)]⟩
    let b : Record := ⟨none, .ofList [("n", .int64 2)]⟩
    let stream : RecordStream := { pending := [.ok a, .error (.storage "lost"), .ok b] }
    let columns : List Column := [{ name := "n", schema := "test", table := "t" }]
    let calls : List CursorCall := [.first, .isLast, .getObject "n", .isLast, .next]
    let start : RecordCursor := { home := ⟨"test", "t"⟩, columns, settings := {}, stream }
    let client : Client := { store := .memory {} }
    (∀ k ∈ calls, k ≠ .close) ∧
      Delivery stream.events (reading columns {}) (exchanges (start, client) calls)
        (afterAll (start, client) calls) ∧
      (exchanges (start, client) calls).filterMap Exchange.brought = stream.events := by
  intro a b stream columns calls start client
  have hk : ∀ k ∈ calls, k ≠ .close := by simp [calls]
  exact ⟨hk, delivery_of_calls ⟨"test", "t"⟩ columns {} stream .nowhere none client calls hk, rfl⟩

end RecordCursor
end KeyedRows
