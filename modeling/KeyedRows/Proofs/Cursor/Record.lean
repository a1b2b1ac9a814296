/-
# What the calls of a record cursor do

What a cursor has still to deliver is the record that it keeps and then the
events of its stream (`RecordCursor.ahead`). A move takes the first of them
(`next_cases`). Looking ahead, for metadata or for the last row, keeps the
place and takes nothing, except a failure that it reports (`Asked`).

Key definitions: `ahead`, `WellPlaced`, `SamePlace`, `Looked`, `Took`,
`Asked`.
-/
import KeyedRows.Cursor.Record
import KeyedRows.Proofs.Cursor.Calls
import KeyedRows.Proofs.Stream

namespace KeyedRows

open CursorM CursorCall

/-- Asking elsewhere for a record fails with this error. -/
def Fallback.Fails (f : Fallback) (cl : Client) (e : Error) : Prop :=
  match f with
  | .nowhere => False
  | .anyRecord home => ∃ after, Client.anyRecord home cl = .error e after
  | .listed [] => False
  | .listed (answer :: _) => answer = .error e

namespace RecordCursor

/-- What the cursor has still to deliver: the record that it keeps, and then
its stream. -/
def ahead (c : RecordCursor) : List Event := c.replay.toList.map .ok ++ c.stream.events

/-- What holds of a cursor between two calls, while it is open. -/
structure WellPlaced (c : RecordCursor) : Prop where
  exhausted : c.exhausted = true → c.stream.events = []
  isOpen : c.state.closed = false
  onRow : c.state.onRow = c.current.isSome
  done : c.state.done = true → c.ahead = []

/-- The second cursor reads the same row under the same columns. -/
structure SamePlace (c d : RecordCursor) : Prop where
  columns : d.columns = c.columns
  settings : d.settings = c.settings
  current : d.current = c.current
  position : d.state.position = c.state.position
  done : d.state.done = c.state.done
  closed : d.state.closed = c.state.closed

/-- The cursor only looked ahead. -/
structure Looked (c d : RecordCursor) : Prop where
  place : SamePlace c d
  placed : WellPlaced d
  ahead : d.ahead = c.ahead

/-- The cursor took the failure that came first. -/
structure Took (c : RecordCursor) (e : Error) (d : RecordCursor) : Prop where
  place : SamePlace c d
  placed : WellPlaced d
  ahead : c.ahead = .error e :: d.ahead

/-- A call that does not move: it looks ahead, and fails with the failure
that comes first, which it takes, or with one of these other errors. -/
def Asked {α : Type} (c : RecordCursor) (other : Error → Prop) :
    EStateM.Result Error (RecordCursor × Client) α → Prop
  | .ok _ t => Looked c t.1
  | .error e t => Took c e t.1 ∨ (Looked c t.1 ∧ other e)

/-- The cursor that took what it kept and went on to this stream. -/
def past (c : RecordCursor) (stream : RecordStream) (exhausted : Bool) : RecordCursor :=
  { c with stream, exhausted, replay := none }

variable {c d : RecordCursor} {cl : Client}

theorem SamePlace.refl (c : RecordCursor) : SamePlace c c := ⟨rfl, rfl, rfl, rfl, rfl, rfl⟩

theorem SamePlace.trans {b : RecordCursor} (h : SamePlace b c) (k : SamePlace c d) :
    SamePlace b d :=
  ⟨k.columns.trans h.columns, k.settings.trans h.settings, k.current.trans h.current,
    k.position.trans h.position, k.done.trans h.done, k.closed.trans h.closed⟩

theorem SamePlace.onRow (h : SamePlace c d) : d.state.onRow = c.state.onRow := by
  simp only [CursorState.onRow, h.position, h.done]

theorem Looked.refl (h : WellPlaced c) : Looked c c := ⟨.refl c, h, rfl⟩

theorem Looked.trans {b : RecordCursor} (h : Looked b c) (k : Looked c d) : Looked b d :=
  ⟨h.place.trans k.place, k.placed, k.ahead.trans h.ahead⟩

/-- A change that keeps the place and what lies ahead is a look. -/
theorem WellPlaced.looked (h : WellPlaced c) (hp : SamePlace c d)
    (hx : d.exhausted = true → d.stream.events = []) (ha : d.ahead = c.ahead) : Looked c d where
  place := hp
  placed :=
    { exhausted := hx
      isOpen := hp.closed.trans h.isOpen
      onRow := by rw [hp.onRow, hp.current, h.onRow]
      done := fun hd => ha.trans (h.done (hp.done ▸ hd)) }
  ahead := ha

/-- After the last row no failure can come. -/
theorem WellPlaced.took {e : Error} (h : WellPlaced c) (hp : SamePlace c d)
    (hx : d.exhausted = true → d.stream.events = []) (ha : c.ahead = .error e :: d.ahead) :
    Took c e d where
  place := hp
  placed :=
    { exhausted := hx
      isOpen := hp.closed.trans h.isOpen
      onRow := by rw [hp.onRow, hp.current, h.onRow]
      done := fun hd => by
        have hnil := h.done (hp.done ▸ hd)
        rw [ha] at hnil
        cases hnil }
  ahead := ha

/-- Where only records lie ahead there is no failure to take. -/
theorem not_took_of_ahead {rs : List Record} (h : c.ahead = rs.map .ok) {e : Error} :
    ¬ Took c e d := by
  intro ht
  obtain ⟨r, -, hr⟩ := List.mem_map.mp (h ▸ ht.ahead ▸ List.mem_cons_self)
  cases hr

/-- After such a call, one that only looks ahead leaves it such a call. -/
theorem Asked.bind {α β : Type} {other : Error → Prop} {x : CursorM RecordCursor α}
    {f : α → CursorM RecordCursor β} {s : RecordCursor × Client} (h : Asked c other (x s))
    (hf : ∀ a t, Looked c t.1 → Asked c other (f a t)) : Asked c other ((x >>= f) s) := by
  rw [bind_apply]
  cases hx : x s with
  | ok a t =>
    rw [hx] at h
    exact hf a t h
  | error e t =>
    rw [hx] at h
    exact h

/-! ### Taking and looking ahead -/

/-- **Fetching takes the first event ahead, and nothing at the end.** -/
theorem fetch_cases (h : WellPlaced c) (cl : Client) : ∃ stream ended,
    (ended = true → stream.events = []) ∧
    ((c.ahead = [] ∧ stream.events = [] ∧
        fetch (c, cl) = .ok none (c.past stream ended, cl)) ∨
     (∃ r, c.ahead = .ok r :: stream.events ∧
        fetch (c, cl) = .ok (some r) (c.past stream ended, cl)) ∨
     (∃ e, c.ahead = .error e :: stream.events ∧
        fetch (c, cl) = .error e (c.past stream ended, cl))) := by
  obtain ⟨home, columns, settings, stream, state, current, replay, exhausted, fallback, known⟩ := c
  have hx := h.exhausted
  simp only at hx
  cases replay with
  | some r => exact ⟨stream, exhausted, hx, .inr (.inl ⟨r, rfl, rfl⟩)⟩
  | none =>
    cases exhausted with
    | true => exact ⟨stream, true, hx, .inl ⟨hx rfl, hx rfl, rfl⟩⟩
    | false =>
      rcases stream.next_cases with ⟨h0, t, hn, ht⟩ | ⟨r, t, hn, ht⟩ | ⟨e, t, hn, ht⟩
      · exact ⟨t, true, fun _ => ht, .inl ⟨h0, ht, by simp [fetch, hn, past]⟩⟩
      · exact ⟨t, false, nofun, .inr (.inl ⟨r, ht, by simp [fetch, hn, past]⟩)⟩
      · exact ⟨t, false, nofun, .inr (.inr ⟨e, ht, by simp [fetch, hn, past]⟩)⟩

/-- Keeping the next record for the next move. A failure on the way is taken. -/
theorem peek_cases (h : WellPlaced c) (cl : Client) :
    (∃ r d, peek (c, cl) = .ok r (d, cl) ∧ Looked c d ∧ d.fallback = c.fallback ∧
      c.ahead.head? = r.map .ok) ∨
    (∃ e d, peek (c, cl) = .error e (d, cl) ∧ Took c e d) := by
  unfold peek
  simp only [bind_apply, cursor_apply]
  cases hr : c.replay with
  | some r =>
    exact .inl ⟨some r, c, rfl, .refl h, rfl, by simp [ahead, hr]⟩
  | none =>
    obtain ⟨t, b, hb, ⟨h0, ht, hf⟩ | ⟨r, hr', hf⟩ | ⟨e, he, hf⟩⟩ := fetch_cases h cl
    · refine .inl ⟨none, { c.past t b with replay := none }, ?_, ?_, rfl, by rw [h0]; rfl⟩
      · simp only [bind_apply, hf]; rfl
      · exact h.looked ⟨rfl, rfl, rfl, rfl, rfl, rfl⟩ hb (by rw [h0]; exact ht)
    · refine .inl ⟨some r, { c.past t b with replay := some r }, ?_, ?_, rfl, by rw [hr']; rfl⟩
      · simp only [bind_apply, hf]; rfl
      · exact h.looked ⟨rfl, rfl, rfl, rfl, rfl, rfl⟩ hb hr'.symm
    · refine .inr ⟨e, c.past t b, ?_, ?_⟩
      · simp only [bind_apply, hf]
      · exact h.took ⟨rfl, rfl, rfl, rfl, rfl, rfl⟩ hb he

theorem askFallback_asked (h : WellPlaced c) (cl : Client) :
    Asked c (c.fallback.Fails cl) (askFallback (c, cl)) := by
  unfold askFallback
  simp only [bind_apply, cursor_apply]
  cases hf : c.fallback with
  | nowhere => exact .refl h
  | anyRecord home =>
    simp only [onClient]
    cases hc : Client.anyRecord home cl with
    | ok r cl' => exact .refl h
    | error e cl' => exact .inr ⟨.refl h, cl', hc⟩
  | listed answers =>
    cases answers with
    | nil => exact .refl h
    | cons answer rest =>
      have hl : Looked c { c with fallback := .listed rest } :=
        h.looked ⟨rfl, rfl, rfl, rfl, rfl, rfl⟩ h.exhausted rfl
      simp only [bind_apply, change_apply]
      cases answer with
      | ok r => exact hl
      | error e => exact .inr ⟨hl, rfl⟩

/-- **What is sampled**: the record of the row, or the record that comes next, or,
if none does, one from elsewhere. -/
theorem sample_cases (h : WellPlaced c) (cl : Client) :
    (∃ r, c.current = some r ∧ sample (c, cl) = .ok (some r) (c, cl)) ∨
    (c.current = none ∧ ∃ d, Looked c d ∧ d.fallback = c.fallback ∧
      ((∃ r, c.ahead.head? = some (.ok r) ∧ sample (c, cl) = .ok (some r) (d, cl)) ∨
        (c.ahead = [] ∧ sample (c, cl) = askFallback (d, cl)))) ∨
    (c.current = none ∧ ∃ e d, Took c e d ∧ sample (c, cl) = .error e (d, cl)) := by
  unfold sample
  simp only [bind_apply, cursor_apply]
  cases c.current with
  | some r => exact .inl ⟨r, rfl, rfl⟩
  | none =>
    simp only
    split_ifs with hdone
    · exact .inr (.inl ⟨trivial, c, .refl h, rfl, .inr ⟨h.done hdone, rfl⟩⟩)
    · rcases peek_cases h cl with ⟨r, d, hp, hl, hf, hhead⟩ | ⟨e, d, hp, ht⟩
      · simp only [bind_apply, hp]
        cases r with
        | some r => exact .inr (.inl ⟨trivial, d, hl, hf, .inl ⟨r, hhead, rfl⟩⟩)
        | none =>
          exact .inr (.inl ⟨trivial, d, hl, hf, .inr ⟨List.head?_eq_none_iff.mp hhead, rfl⟩⟩)
      · simp only [bind_apply, hp]
        exact .inr (.inr ⟨trivial, e, d, ht, rfl⟩)

theorem sample_asked (h : WellPlaced c) (cl : Client) :
    Asked c (c.fallback.Fails cl) (sample (c, cl)) := by
  rcases sample_cases h cl with ⟨r, -, hs⟩ |
      ⟨-, d, hl, hf, ⟨r, -, hs⟩ | ⟨-, hs⟩⟩ | ⟨-, e, d, ht, hs⟩ <;> rw [hs]
  · exact .refl h
  · exact hl
  · have hask := askFallback_asked hl.placed cl
    rw [hf] at hask
    cases ha : askFallback (d, cl) with
    | ok r t => rw [ha] at hask; exact hl.trans hask
    | error e t =>
      rw [ha] at hask
      rcases hask with ht | ⟨hl', he⟩
      · exact .inl ⟨hl.place.trans ht.place, ht.placed, hl.ahead ▸ ht.ahead⟩
      · exact .inr ⟨hl.trans hl', he⟩
  · exact .inl ht

theorem computeMetadata_asked (h : WellPlaced c) (cl : Client) :
    Asked c (c.fallback.Fails cl) (computeMetadata (c, cl)) := by
  unfold computeMetadata
  simp only [bind_apply, cursor_apply]
  split_ifs
  · exact .refl h
  · exact (sample_asked h cl).bind fun r t ht => ht

theorem getMetadata_asked (h : WellPlaced c) (cl : Client) :
    Asked c (c.fallback.Fails cl) (getMetadata (c, cl)) := by
  unfold getMetadata
  simp only [bind_apply, cursor_apply, CursorState.ensureOpen, h.isOpen]
  cases c.metadata with
  | some m => exact .refl h
  | none =>
    refine (computeMetadata_asked h cl).bind fun m t ht => ?_
    exact ht.trans (ht.placed.looked ⟨rfl, rfl, rfl, rfl, rfl, rfl⟩ ht.placed.exhausted rfl)

/-- Asking whether the row is the last: it is, if nothing lies ahead of it. -/
theorem isLast_cases (h : WellPlaced c) (cl : Client) :
    (∃ b d, isLast (c, cl) = .ok b (d, cl) ∧ Looked c d ∧
      (b = true ↔ c.state.onRow = true ∧ c.ahead = [])) ∨
    (∃ e d, isLast (c, cl) = .error e (d, cl) ∧ Took c e d) := by
  unfold isLast
  simp only [bind_apply, cursor_apply, CursorState.ensureOpen, h.isOpen]
  cases hc : c.current with
  | none => exact .inl ⟨false, c, rfl, .refl h, by simp [h.onRow, hc]⟩
  | some r =>
    rcases peek_cases h cl with ⟨next, d, hp, hl, -, hhead⟩ | ⟨e, d, hp, ht⟩
    · refine .inl ⟨next.isNone, d, by simp [bind_apply, hp], hl, ?_⟩
      have hnil : next = none ↔ c.ahead = [] := by
        rw [← List.head?_eq_none_iff, hhead, Option.map_eq_none_iff]
      rw [Option.isNone_iff_eq_none, hnil, h.onRow, hc]
      simp
    · exact .inr ⟨e, d, by simp [bind_apply, hp], ht⟩

/-- **A move takes the first event ahead**: to a record the cursor moves, a
failure it reports and stays; when nothing lies ahead it is after its rows. -/
theorem next_cases (h : WellPlaced c) (cl : Client) :
    (∃ r d, next (c, cl) = .ok true (d, cl) ∧ WellPlaced d ∧ c.ahead = .ok r :: d.ahead ∧
      d.columns = c.columns ∧ d.settings = c.settings ∧ d.current = some r ∧
      d.state = c.state.advance) ∨
    (∃ d, next (c, cl) = .ok false (d, cl) ∧ WellPlaced d ∧ c.ahead = [] ∧ d.ahead = [] ∧
      d.columns = c.columns ∧ d.settings = c.settings ∧ d.current = none ∧
      d.state = c.state.finish) ∨
    (∃ e d, next (c, cl) = .error e (d, cl) ∧ Took c e d ∧ d.state = c.state) := by
  unfold next
  simp only [bind_apply, cursor_apply, CursorState.ensureOpen, h.isOpen]
  cases hd : c.state.done with
  | true =>
    have hcur : c.current = none := by
      have := h.onRow
      simpa [CursorState.onRow, hd] using this.symm
    refine .inr (.inl ⟨c, rfl, h, h.done hd, h.done hd, rfl, rfl, hcur, ?_⟩)
    simp [CursorState.finish, ← hd]
  | false =>
    obtain ⟨t, b, hb, ⟨h0, ht, hf⟩ | ⟨r, hr, hf⟩ | ⟨e, he, hf⟩⟩ := fetch_cases h cl
    · refine .inr (.inl ⟨{ c.past t b with current := none, state := c.state.finish },
        ?_, ⟨hb, h.isOpen, ?_, fun _ => ht⟩, h0, ht, rfl, rfl, rfl, rfl⟩)
      · simp [bind_apply, hf]; rfl
      · simp [CursorState.onRow, CursorState.finish]
    · refine .inl ⟨r, { c.past t b with current := some r, state := c.state.advance },
        ?_, ⟨hb, h.isOpen, ?_, fun hd' => ?_⟩, hr, rfl, rfl, rfl, rfl⟩
      · simp [bind_apply, hf]; rfl
      · simp [CursorState.onRow, CursorState.advance, hd]
      · simp [CursorState.advance, hd] at hd'
    · refine .inr (.inr ⟨e, c.past t b, by simp [bind_apply, hf],
        h.took ⟨rfl, rfl, rfl, rfl, rfl, rfl⟩ hb he, rfl⟩)

/-! ### Closed cursors -/

/-- A move to a row has fetched its record. -/
theorem fetched_of_next {s t : RecordCursor × Client} (h : next s = .ok true t) : ∃ r u,
    fetch s = .ok (some r) u ∧
      t = ({ u.1 with current := some r, state := u.1.state.advance }, u.2) := by
  unfold next at h
  simp only [bind_apply, cursor_apply] at h
  cases hopen : s.1.state.ensureOpen with
  | error e =>
    rw [hopen] at h
    cases h
  | ok a =>
    simp only [hopen, ofExcept_ok] at h
    split_ifs at h
    · cases h
    · simp only [bind_apply] at h
      rcases hf : fetch s with ⟨_ | r, u⟩ | ⟨e, u⟩ <;> rw [hf] at h <;> cases h
      exact ⟨r, u, rfl, rfl⟩

theorem next_closed (h : c.state.closed = true) (cl : Client) :
    next (c, cl) = .error (.closed "cursor") (c, cl) := by
  simp [next, bind_apply, CursorState.ensureOpen, h]

theorem getMetadata_closed (h : c.state.closed = true) (cl : Client) :
    getMetadata (c, cl) = .error (.closed "cursor") (c, cl) := by
  simp [getMetadata, bind_apply, CursorState.ensureOpen, h]

end RecordCursor
end KeyedRows
