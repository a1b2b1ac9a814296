/-
# Searches end by themselves

A filtered cursor looks for an accepted row in a number of moves that is bounded by
what the cursor under it has left. The bound is no part of what it does: no call gives
a cursor more rows than it had left, and a move to a row leaves fewer
(`BoundedCursor`), whatever the tests of filters call. So each round of a search that
goes on begins with less left than the round before, and the search is the loop that
goes on until a row is accepted, something fails, or no row is left (`seek_eq_loop`).

Key definition: `BoundedCursor`.
Key theorem: **`FilteredCursor.seek_eq_loop`**.
-/
import KeyedRows.Proofs.Cursor.States

namespace KeyedRows

open CursorM CursorCall

/-- No more is left after something than before. -/
def Shrinks {γ : Type} [RowCursor γ] (s t : γ × Client) : Prop :=
  RowCursor.remaining t.1 ≤ RowCursor.remaining s.1

instance {γ : Type} [RowCursor γ] : Std.Refl (Shrinks (γ := γ)) := ⟨fun _ => Nat.le_refl _⟩

instance {γ : Type} [RowCursor γ] : IsTrans (γ × Client) Shrinks :=
  ⟨fun _ _ _ h k => Nat.le_trans k h⟩

/-- A kind of cursor that never has more left after a call than before, and less after a
move to a row. -/
class BoundedCursor (γ : Type) [RowCursor γ] : Prop where
  after : ∀ (k : CursorCall) (s : γ × Client), Shrinks s (k.after s)
  moved : ∀ s : γ × Client, CursorCall.next.answer s = .ok true →
    RowCursor.remaining (CursorCall.next.after s).1 < RowCursor.remaining s.1

section

variable {γ : Type} [RowCursor γ]

theorem BoundedCursor.afterAll [BoundedCursor γ] (ks : List CursorCall) (s : γ × Client) :
    Shrinks s (afterAll s ks) :=
  (exchanges_keep (I := fun t => Shrinks s t)
    (fun t k ht (_ : True) => trans_of Shrinks ht (after k t)) ks s (refl_of Shrinks s)
    fun _ _ => trivial).1

/-- **No call leaves more than there was**, if none does that a kind of cursor has of its
own. -/
theorem shrinks_of_own
    (onState : ∀ (c : γ) st, RowCursor.remaining (RowCursor.withState c st) = RowCursor.remaining c)
    (next : Leads Shrinks (CursorCall.next.run (γ := γ)))
    (close : Leads Shrinks (CursorCall.close.run (γ := γ)))
    (metadata : Leads Shrinks (CursorCall.metadata.run (γ := γ)))
    (isLast : Leads Shrinks (CursorCall.isLast.run (γ := γ)))
    (readValue : ∀ label, Leads Shrinks ((CursorCall.readValue label).run (γ := γ)))
    (k : CursorCall) (s : γ × Client) : Shrinks s (k.after s) := by
  by_cases hclose : k = .close
  · subst hclose
    exact close.after s
  · exact RowCursor.leads_of_own (R := Shrinks) (refl_of Shrinks) (trans_of Shrinks) hclose
      (next.after s) (fun _ => metadata.after s) (isLast.after s)
      (fun label => (readValue label).after s) fun t st _ => Nat.le_of_eq (onState t.1 st)

end

/-! ### Searches -/

namespace FilteredCursor

variable {γ : Type} [RowCursor γ] [BoundedCursor γ] {test : RowTest}

/-- A round of a search that comes to a row and tests it leaves less than there was. -/
theorem remaining_of_round {s t u : γ × Client} {accepted : Bool}
    (hnext : CursorCall.next.run s = .ok true t) (htest : test.run t = .ok accepted u) :
    RowCursor.remaining u.1 < RowCursor.remaining s.1 := by
  have hmoved := BoundedCursor.moved s (answer_ok hnext)
  have hcalls := BoundedCursor.afterAll (test.calls t) t
  rw [after_ok hnext] at hmoved
  rw [← RowTest.leaves_run, leaves_ok htest] at hcalls
  exact Nat.lt_of_le_of_lt hcalls hmoved

/-- A search that finds a row leaves less than there was. -/
theorem remaining_of_found {t : γ × Client} : ∀ {moves : Nat} {s : γ × Client},
    seek test moves s = .ok true t → RowCursor.remaining t.1 < RowCursor.remaining s.1
  | 0, _, h => by cases h
  | moves + 1, s, h => by
    rw [seek_succ] at h
    rcases hn : (CursorCall.next.run s : EStateM.Result Error (γ × Client) Bool) with
      ⟨_ | _, u⟩ | ⟨e, u⟩ <;> rw [hn] at h
    · cases h
    · rcases hr : (test.run u : EStateM.Result Error (γ × Client) Bool) with ⟨_ | _, v⟩ | ⟨e, v⟩ <;>
        simp only [hr] at h
      · exact (remaining_of_found h).trans (remaining_of_round hn hr)
      · cases h
        exact remaining_of_round hn hr
      · cases h
    · cases h

/-- **More moves than there are rows left find nothing else.** -/
theorem seek_of_enough : ∀ {moves : Nat} {s : γ × Client}, RowCursor.remaining s.1 < moves →
    ∀ more : Nat, seek test (moves + more) s = seek test moves s
  | 0, _, h, _ => absurd h (Nat.not_lt_zero _)
  | moves + 1, s, h, more => by
    rw [Nat.add_right_comm moves 1 more, seek_succ, seek_succ]
    rcases hn : (CursorCall.next.run s : EStateM.Result Error (γ × Client) Bool) with
      ⟨_ | _, t⟩ | ⟨e, t⟩
    · rfl
    · rcases hr : (test.run t : EStateM.Result Error (γ × Client) Bool) with ⟨_ | _, u⟩ | ⟨e, u⟩ <;>
        simp only [hr]
      have hless := remaining_of_round hn hr
      exact seek_of_enough (by omega) more
    · rfl

/-- **A search is the loop** that moves, tests the row that it comes to, and goes on if
the test refuses it: the bound on its moves never ends it. -/
theorem seek_eq_loop (test : RowTest) (s : γ × Client) :
    seek test (RowCursor.remaining s.1 + 1) s =
      match CursorCall.next.run s with
      | .ok true t =>
        match test.run t with
        | .ok true u => .ok true u
        | .ok false u => seek test (RowCursor.remaining u.1 + 1) u
        | .error e u => .error e u
      | .ok false t => .ok false t
      | .error e t => .error e t := by
  rw [seek_succ]
  rcases hn : (CursorCall.next.run s : EStateM.Result Error (γ × Client) Bool) with
    ⟨_ | _, t⟩ | ⟨e, t⟩
  · rfl
  · rcases hr : (test.run t : EStateM.Result Error (γ × Client) Bool) with ⟨_ | _, u⟩ | ⟨e, u⟩ <;>
      simp only [hr]
    -- as many moves are left as there were rows, and fewer rows
    have hless := remaining_of_round hn hr
    obtain ⟨more, hmore⟩ := Nat.exists_eq_add_of_le (Nat.succ_le_of_lt hless)
    rw [hmore, seek_of_enough (Nat.lt_succ_self _)]
  · rfl

end FilteredCursor

/-! ### Each kind of cursor -/

theorem pull_length (filters : List Filter) : ∀ pending : List Event,
    (pull filters pending).2.length ≤ pending.length ∧
      ∀ r, (pull filters pending).1 = .ok (some r) →
        (pull filters pending).2.length < pending.length
  | [] => ⟨Nat.le_refl 0, fun r h => by cases h⟩
  | .error e :: rest => ⟨Nat.le_succ _, fun r h => by cases h⟩
  | .ok r :: rest => by
    rw [pull]
    split_ifs
    · exact ⟨Nat.le_succ _, fun r' _ => Nat.lt_succ_self _⟩
    · obtain ⟨hleft, htaken⟩ := pull_length filters rest
      exact ⟨Nat.le_succ_of_le hleft, fun r' h => Nat.lt_succ_of_lt (htaken r' h)⟩

namespace RecordCursor

/-- What is fetched is taken from what is left. -/
theorem remaining_of_fetch (s : RecordCursor × Client) : Shrinks s (leaves fetch s) ∧
    ∀ r t, fetch s = .ok (some r) t → RowCursor.remaining t.1 < RowCursor.remaining s.1 := by
  obtain ⟨c, cl⟩ := s
  have hpull := pull_length c.stream.filters c.stream.pending
  simp only [Shrinks, leaves, fetch, RowCursor.remaining]
  cases hreplay : c.replay with
  | some r =>
    refine ⟨by simp, fun r' t ht => ?_⟩
    cases ht
    simp
  | none =>
    simp only
    split_ifs
    · exact ⟨by simp [hreplay], fun r t ht => by cases ht⟩
    · unfold RecordStream.next
      rcases hp : pull c.stream.filters c.stream.pending with ⟨_ | (_ | r), rest⟩ <;>
        rw [hp] at hpull
      · exact ⟨by simpa [hreplay] using hpull.1, fun r t ht => by cases ht⟩
      · exact ⟨by simpa [hreplay] using hpull.1, fun r t ht => by cases ht⟩
      · refine ⟨by simpa [hreplay] using hpull.1, fun r' t ht => ?_⟩
        cases ht
        simpa [hreplay] using hpull.2 r rfl

/-- A record that is looked at ahead of its move is left, like those behind it. -/
theorem shrinks_peek : Leads Shrinks peek := by
  rintro ⟨c, cl⟩
  obtain ⟨hleft, htaken⟩ := remaining_of_fetch (c, cl)
  unfold leaves at hleft ⊢
  simp only [peek, bind_apply, cursor_apply]
  cases hreplay : c.replay with
  | some r => exact Nat.le_refl _
  | none =>
    simp only [bind_apply]
    cases hf : fetch (c, cl) with
    | error e t =>
      rw [hf] at hleft
      exact hleft
    | ok r t =>
      rw [hf] at hleft
      -- what is kept for the next move was taken from the stream
      have hkept : RowCursor.remaining { t.1 with replay := r } ≤
          r.toList.length + RowCursor.remaining t.1 := by
        simp only [RowCursor.remaining]
        omega
      cases r with
      | some r =>
        have hless := htaken r t hf
        exact hkept.trans ((Nat.add_comm 1 _).trans_le hless)
      | none => exact hkept.trans (by simpa [Shrinks] using hleft)

theorem shrinks_next : Leads Shrinks next := by
  have hfetch : Leads Shrinks fetch := fun s => (remaining_of_fetch s).1
  refine leads_cursor.bind fun c => (leads_ofExcept _).bind fun _ => ?_
  split_ifs
  · exact leads_pure _
  · refine hfetch.bind fun r => ?_
    cases r <;>
      exact Leads.bind (leads_change fun _ _ => Nat.le_refl _) fun _ => leads_pure _

/-- A move to a row takes a record from what is left. -/
theorem remaining_of_next {s t : RecordCursor × Client} (h : next s = .ok true t) :
    RowCursor.remaining t.1 < RowCursor.remaining s.1 := by
  obtain ⟨r, u, hfetch, rfl⟩ := fetched_of_next h
  exact (remaining_of_fetch s).2 r u hfetch

end RecordCursor

instance : BoundedCursor RecordCursor where
  after := by
    have hask : Leads Shrinks RecordCursor.askFallback :=
      RecordCursor.leads_askFallback (fun _ _ _ => Nat.le_refl _) fun _ _ _ => Nat.le_refl _
    refine shrinks_of_own (fun _ _ => rfl) RecordCursor.shrinks_next (fun s => ?_)
      (RecordCursor.leads_getMetadata RecordCursor.shrinks_peek hask fun _ _ _ => Nat.le_refl _)
      (RecordCursor.leads_isLast RecordCursor.shrinks_peek)
      fun _ => leads_cursor.bind fun _ => leads_ofExcept _
    rw [← CursorCall.after_eq, Shrinks, RecordCursor.close_after_eq]
    split_ifs
    · exact Nat.le_refl _
    · exact Nat.zero_le _
  moved _ h := RecordCursor.remaining_of_next (run_of_answer h)

namespace StaticCursor

theorem shrinks_next : Leads Shrinks next := by
  rintro ⟨c, cl⟩
  cases hclosed : c.state.closed with
  | true =>
    rw [leaves_error (next_closed hclosed cl)]
    exact refl_of Shrinks _
  | false =>
    rcases next_cases hclosed cl with ⟨-, hn⟩ | ⟨-, row, rows, hrows, hn⟩ | ⟨-, -, hn⟩ <;>
      rw [leaves_ok hn]
    · exact refl_of Shrinks _
    · simp [Shrinks, RowCursor.remaining, hrows]
    · exact Nat.le_refl _

/-- The closing gives up the rows that are left. -/
theorem shrinks_close : Leads Shrinks close := leads_change fun c _ => by
  change (if c.state.closed then c else _ : StaticCursor).rows.length ≤ c.rows.length
  split_ifs
  · exact Nat.le_refl _
  · exact Nat.zero_le _

end StaticCursor

instance : BoundedCursor StaticCursor where
  after := by
    have hmetadata : Leads Shrinks StaticCursor.getMetadata :=
      leads_cursor.bind fun _ => (leads_ofExcept _).bind fun _ => leads_pure _
    have hlast : Leads Shrinks StaticCursor.isLast :=
      leads_cursor.bind fun _ => (leads_ofExcept _).bind fun _ => leads_pure _
    exact shrinks_of_own (fun _ _ => rfl) StaticCursor.shrinks_next StaticCursor.shrinks_close
      hmetadata hlast fun _ => leads_cursor.bind fun _ => leads_ofExcept _
  moved s h := by
    obtain ⟨row, hrows, -⟩ := StaticCursor.taken_of_next (run_of_answer h)
    simp [RowCursor.remaining, hrows]

/-- A filter has left what the cursor under it has left. -/
instance {γ : Type} [RowCursor γ] [BoundedCursor γ] : BoundedCursor (FilteredCursor γ) where
  after k s := by
    have hunder := BoundedCursor.afterAll (FilteredCursor.passed s k) (FilteredCursor.under s)
    rw [← FilteredCursor.under_after] at hunder
    exact hunder
  moved _ h := by
    have hfound := FilteredCursor.found_of_next (run_of_answer h)
    have hless := FilteredCursor.remaining_of_found hfound
    exact hless

/-! ### Cursors in a wrapping -/

section

variable {γ δ : Type} [RowCursor γ] [RowCursor δ] [BoundedCursor γ] {φ : γ → δ}

/-- What is bounded so is bounded in a wrapping that has as much left. -/
theorem Carries.shrinks (h : Carries φ)
    (hleft : ∀ c, RowCursor.remaining (φ c) = RowCursor.remaining c) (k : CursorCall)
    (s : γ × Client) : Shrinks (φ s.1, s.2) (k.after (φ s.1, s.2)) := by
  rw [h.after k s, Shrinks, hleft, hleft]
  exact BoundedCursor.after k s

theorem Carries.moved (h : Carries φ)
    (hleft : ∀ c, RowCursor.remaining (φ c) = RowCursor.remaining c) {s : γ × Client}
    (hs : CursorCall.next.answer (φ s.1, s.2) = .ok true) :
    RowCursor.remaining (CursorCall.next.after (φ s.1, s.2)).1 < RowCursor.remaining (φ s.1) := by
  rw [h.answer .next s] at hs
  rw [h.after .next s, hleft, hleft]
  exact BoundedCursor.moved s hs

end

instance : BoundedCursor BaseCursor where
  after := by
    rintro k ⟨c | c, cl⟩
    · exact BaseCursor.carries_record.shrinks (fun _ => rfl) k (c, cl)
    · exact BaseCursor.carries_static.shrinks (fun _ => rfl) k (c, cl)
  moved := by
    rintro ⟨c | c, cl⟩ h
    · exact BaseCursor.carries_record.moved (fun _ => rfl) (s := (c, cl)) h
    · exact BaseCursor.carries_static.moved (fun _ => rfl) (s := (c, cl)) h

instance CursorStack.boundedCursor : (n : Nat) → BoundedCursor (CursorStack n)
  | 0 => inferInstanceAs (BoundedCursor BaseCursor)
  | n + 1 =>
    have := CursorStack.boundedCursor n
    inferInstanceAs (BoundedCursor (FilteredCursor (CursorStack n)))

instance : BoundedCursor Cursor where
  after k s := (Cursor.carries_mk s.1.filters).shrinks (fun _ => rfl) k (s.1.stack, s.2)
  moved s h := (Cursor.carries_mk s.1.filters).moved (fun _ => rfl) (s := (s.1.stack, s.2)) h

end KeyedRows
