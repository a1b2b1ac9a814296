/-
# Where a cursor stands after its calls

A cursor counts its moves to a row, remembers that it has moved past the last one,
and keeps the warnings since it moved to a row or was told to clear them. All this is
told by the answers of the calls that were made on it (`position_afterAll`,
`done_afterAll`, `warnings_afterAll`), whatever the test of a filter has done to the
cursor under it, and whatever has failed. A cursor past its last row answers every move
itself (`Stops`).

Key definitions: `ended`, `standingWarnings`, `CursorCall.stays`, `Stops`.
Key theorem: **`Cursor.calls_tell_position`**.
-/
import KeyedRows.Cursor.Comparison
import KeyedRows.Proofs.Cursor.Closing

namespace KeyedRows

open CursorM CursorCall

/-- The warning that a call asks for. -/
def CursorCall.warning? : CursorCall → Option String
  | setFetchDirection d =>
    if d = .forward then none
    else some s!"fetch direction {d.name} is not supported; using Forward"
  | _ => none

/-- The calls that leave place and warnings: neither moves nor the closing, and none that
speaks of warnings. -/
def CursorCall.stays : CursorCall → Bool
  | next => false
  | first => false
  | close => false
  | setFetchDirection _ => false
  | clearWarnings => false
  | _ => true

/-- The cursor stands in the same place, under the same warnings. -/
structure CursorState.SamePlace (s t : CursorState) : Prop where
  position : t.position = s.position
  done : t.done = s.done
  warnings : t.warnings = s.warnings

section

variable {γ : Type} [RowCursor γ]

/-- The call drops the warnings before it: it moves to a row or clears them. -/
def Exchange.dropsWarnings (x : Exchange γ) : Bool :=
  match x.call with
  | .clearWarnings => true
  | _ => x.moved? == some true

/-- A call has answered that there is no further row. -/
def ended (xs : List (Exchange γ)) : Bool := xs.any (·.moved? == some false)

/-- The warnings that were asked for since the last call that drops them. -/
def standingWarnings (xs : List (Exchange γ)) : List String :=
  (xs.rtakeWhile (!·.dropsWarnings)).filterMap (·.call.warning?)

theorem ended_append (xs : List (Exchange γ)) (x : Exchange γ) :
    ended (xs ++ [x]) = (ended xs || x.moved? == some false) := by
  simp [ended, List.any_append]

theorem standingWarnings_append (xs : List (Exchange γ)) (x : Exchange γ) :
    standingWarnings (xs ++ [x]) =
      if x.dropsWarnings then [] else standingWarnings xs ++ x.call.warning?.toList := by
  unfold standingWarnings
  cases hdrops : x.dropsWarnings with
  | true => rw [List.rtakeWhile_concat_neg _ _ _ (by simp [hdrops])]; rfl
  | false =>
    rw [List.rtakeWhile_concat_pos _ _ _ (by simp [hdrops]), List.filterMap_append]
    cases hw : x.call.warning? <;> simp [hw]

/-! ### One call -/

namespace CursorState

theorem position_moved (s : CursorState) (b : Option Bool) :
    (s.moved b).position = s.position + if b = some true then 1 else 0 := by
  rcases b with _ | (_ | _) <;> rfl

theorem done_moved (s : CursorState) (b : Option Bool) :
    (s.moved b).done = (s.done || b == some false) := by
  rcases b with _ | (_ | _) <;> simp [moved, advance, finish]

theorem warnings_moved (s : CursorState) (b : Option Bool) :
    (s.moved b).warnings = if b == some true then [] else s.warnings := by
  rcases b with _ | (_ | _) <;> rfl

theorem samePlace_noted (s : CursorState) (v : Option Value) : s.SamePlace (s.noted v) := by
  cases v <;> exact ⟨rfl, rfl, rfl⟩

theorem place_directed (s : CursorState) (d : FetchDirection) :
    (s.directed d).position = s.position ∧ (s.directed d).done = s.done := by
  unfold directed
  split_ifs <;> exact ⟨rfl, rfl⟩

theorem warnings_directed {s : CursorState} (hopen : s.closed = false) (d : FetchDirection) :
    (s.directed d).warnings =
      s.warnings ++ (CursorCall.setFetchDirection d).warning?.toList := by
  unfold directed CursorCall.warning?
  by_cases hd : d = .forward
  · simp [hd]
  · simp [hopen, hd, warn]

end CursorState

namespace Exchange

/-- A call that stays leaves place and warnings. -/
theorem samePlace_effect {x : Exchange γ} (h : x.call.stays = true) (st : CursorState) :
    st.SamePlace (x.effect st) := by
  obtain ⟨s, k⟩ := x
  cases k with
  | getObject label => exact st.samePlace_noted _
  | get α label => exact st.samePlace_noted _
  | next | first | close | setFetchDirection | clearWarnings => cases h
  | metadata | findColumn | isLast | readValue | setFetchSize | scroll | state =>
    exact ⟨rfl, rfl, rfl⟩

/-- A call that stays answers no move. -/
theorem moved?_of_stays {x : Exchange γ} (h : x.call.stays = true) : x.moved? = none := by
  refine CursorCall.moved?_of_stays ?_ ?_ x.answer <;>
  · intro hcall
    rw [hcall] at h
    cases h

theorem position_effect (x : Exchange γ) (st : CursorState) :
    (x.effect st).position = st.position + if x.moved? = some true then 1 else 0 := by
  by_cases hstays : x.call.stays = true
  · rw [(samePlace_effect hstays st).position, moved?_of_stays hstays]
    rfl
  · obtain ⟨s, k⟩ := x
    cases k with
    | next | first => exact st.position_moved _
    | setFetchDirection d => exact (st.place_directed d).1
    | close | clearWarnings => rfl
    | _ => exact absurd rfl hstays

theorem done_effect (x : Exchange γ) (st : CursorState) :
    (x.effect st).done = (st.done || x.moved? == some false) := by
  by_cases hstays : x.call.stays = true
  · rw [(samePlace_effect hstays st).done, moved?_of_stays hstays]
    exact (Bool.or_false _).symm
  · obtain ⟨s, k⟩ := x
    cases k with
    | next | first => exact st.done_moved _
    | setFetchDirection d => exact (st.place_directed d).2.trans (Bool.or_false _).symm
    | close | clearWarnings => exact (Bool.or_false _).symm
    | _ => exact absurd rfl hstays

theorem warnings_effect (x : Exchange γ) {st : CursorState} (hopen : st.closed = false) :
    (x.effect st).warnings =
      if x.dropsWarnings then [] else st.warnings ++ x.call.warning?.toList := by
  obtain ⟨s, k⟩ := x
  cases k with
  | next | first =>
    refine (st.warnings_moved _).trans ?_
    simp only [dropsWarnings, CursorCall.warning?, Option.toList_none, List.append_nil]
  | setFetchDirection d => exact st.warnings_directed hopen d
  | getObject label => exact (st.samePlace_noted _).warnings.trans (List.append_nil _).symm
  | get α label => exact (st.samePlace_noted _).warnings.trans (List.append_nil _).symm
  | clearWarnings => rfl
  | close | metadata | findColumn | isLast | readValue | setFetchSize | scroll | state =>
    exact (List.append_nil _).symm

end Exchange

/-! ### All calls -/

section

variable [TrackedCursor γ]

/-- **The moves to a row tell the position.** -/
theorem TrackedCursor.position_afterAll (s : γ × Client) (calls : List CursorCall) :
    (RowCursor.state (afterAll s calls).1).position =
      (RowCursor.state s.1).position + moves (exchanges s calls) := by
  induction calls using List.reverseRecOn with
  | nil => rfl
  | append_singleton ks k ih =>
    have hstep := congrArg CursorState.position (state_after ⟨afterAll s ks, k⟩)
    rw [afterAll_append, exchanges_append, moves_append, ← Nat.add_assoc, ← ih]
    exact hstep.trans (Exchange.position_effect _ _)

/-- **A move past the last row tells that the cursor is after its rows.** -/
theorem TrackedCursor.done_afterAll (s : γ × Client) (calls : List CursorCall) :
    (RowCursor.state (afterAll s calls).1).done =
      ((RowCursor.state s.1).done || ended (exchanges s calls)) := by
  induction calls using List.reverseRecOn with
  | nil => exact (Bool.or_false _).symm
  | append_singleton ks k ih =>
    have hstep := congrArg CursorState.done (state_after ⟨afterAll s ks, k⟩)
    rw [afterAll_append, exchanges_append, ended_append, ← Bool.or_assoc, ← ih]
    exact hstep.trans (Exchange.done_effect _ _)

end

section

variable [LawfulCursor γ]

/-- Calls that do not close a cursor leave it open or closed, as it is. -/
theorem LawfulCursor.closed_afterAll : ∀ (calls : List CursorCall) (s : γ × Client),
    (∀ k ∈ calls, k ≠ .close) →
      (RowCursor.state (afterAll s calls).1).closed = (RowCursor.state s.1).closed
  | [], _, _ => rfl
  | k :: ks, s, h => by
    rw [afterAll_cons, closed_afterAll ks _ fun k' hk' => h k' (List.mem_cons_of_mem _ hk')]
    exact closed_after (h k List.mem_cons_self) s

/-- **The warnings since the last call that drops them stand.** -/
theorem LawfulCursor.warnings_afterAll {s : γ × Client} (hopen : (RowCursor.state s.1).closed = false)
    (hnone : (RowCursor.state s.1).warnings = []) (calls : List CursorCall)
    (hcalls : ∀ k ∈ calls, k ≠ .close) :
    (RowCursor.state (afterAll s calls).1).warnings = standingWarnings (exchanges s calls) := by
  induction calls using List.reverseRecOn with
  | nil => exact hnone
  | append_singleton ks k ih =>
    have hks : ∀ k ∈ ks, k ≠ .close := fun k hk => hcalls k (List.mem_append_left _ hk)
    have hstill : (RowCursor.state (afterAll s ks).1).closed = false :=
      (closed_afterAll ks s hks).trans hopen
    have hstep := congrArg CursorState.warnings (TrackedCursor.state_after ⟨afterAll s ks, k⟩)
    rw [afterAll_append, exchanges_append, standingWarnings_append, ← ih hks]
    exact hstep.trans (Exchange.warnings_effect _ hstill)

/-- An open cursor takes every direction. -/
theorem RowCursor.setFetchDirection_answer {γ : Type} [RowCursor γ] {s : γ × Client}
    (hopen : (RowCursor.state s.1).closed = false) (d : FetchDirection) :
    (CursorCall.setFetchDirection d).answer s = .ok () := by
  obtain ⟨c, cl⟩ := s
  simp only [CursorCall.answer, CursorCall.run, setFetchDirection, bind_apply,
    ensureOpen_apply hopen]
  by_cases hforward : d = .forward
  · simp [hforward]
  · simp only [ne_eq, hforward, not_false_eq_true, if_true]
    rfl

/-- A call that fails leaves place and warnings, as one that stays does. -/
theorem LawfulCursor.samePlace_after {s : γ × Client} (hopen : (RowCursor.state s.1).closed = false)
    {k : CursorCall} (hk : k.stays = true ∨ ∃ e, k.answer s = .error e) :
    (RowCursor.state s.1).SamePlace (RowCursor.state (k.after s).1) := by
  have hstate : RowCursor.state (k.after s).1 = _ := TrackedCursor.state_after ⟨s, k⟩
  rw [hstate]
  rcases hk with hk | ⟨e, he⟩
  · exact Exchange.samePlace_effect hk _
  · have hmoved : (Exchange.mk s k).moved? = none :=
      Exchange.moved?_of_error (Exchange.error?_eq_some.mpr he)
    refine ⟨?_, ?_, ?_⟩
    · rw [Exchange.position_effect, hmoved]
      rfl
    · rw [Exchange.done_effect, hmoved]
      exact Bool.or_false _
    · -- what drops warnings or adds one does not fail
      rw [Exchange.warnings_effect _ hopen]
      cases k with
      | clearWarnings => cases he
      | setFetchDirection d => cases he.symm.trans (RowCursor.setFetchDirection_answer hopen d)
      | _ => simp [Exchange.dropsWarnings, hmoved, CursorCall.warning?]

end

end

/-! ### After the last row -/

/-- After its last row an open cursor answers a move itself: it does nothing. -/
def Stops {γ : Type} [RowCursor γ] (c : γ) : Prop :=
  (RowCursor.state c).closed = false → (RowCursor.state c).done = true →
    ∀ cl, RowCursor.next (c, cl) = .ok false (c, cl)

/-- A kind of cursor whose cursors stop after their last rows. -/
class StoppingCursor (γ : Type) [RowCursor γ] : Prop where
  stops : ∀ c : γ, Stops c

/-- What stops does so in a wrapping. -/
theorem Carries.stops {γ δ : Type} [RowCursor γ] [RowCursor δ] {φ : γ → δ} (h : Carries φ)
    {c : γ} (hc : Stops c) : Stops (φ c) := by
  intro hopen hdone cl
  rw [h.state] at hopen hdone
  exact (h.next (c, cl)).trans (congrArg (mapCursor φ) (hc hopen hdone cl))

instance : StoppingCursor RecordCursor where
  stops c hopen hdone cl := by
    have hopen : c.state.closed = false := hopen
    have hdone : c.state.done = true := hdone
    change RecordCursor.next (c, cl) = _
    simp [RecordCursor.next, bind_apply, CursorState.ensureOpen, hopen, hdone]

instance : StoppingCursor StaticCursor where
  stops c hopen hdone cl := by
    rcases StaticCursor.next_cases hopen cl with ⟨-, h⟩ | ⟨hmore, -⟩ | ⟨hmore, -⟩
    · exact h
    · cases hdone.symm.trans hmore
    · cases hdone.symm.trans hmore

/-- A filter stops over whatever cursor. -/
instance {γ : Type} [RowCursor γ] : StoppingCursor (FilteredCursor γ) where
  stops _ hopen hdone _ := FilteredCursor.next_of_done hopen hdone

instance : StoppingCursor BaseCursor where
  stops
    | .record c => BaseCursor.carries_record.stops (StoppingCursor.stops c)
    | .static c => BaseCursor.carries_static.stops (StoppingCursor.stops c)

instance : (n : Nat) → StoppingCursor (CursorStack n)
  | 0 => inferInstanceAs (StoppingCursor BaseCursor)
  | n + 1 => inferInstanceAs (StoppingCursor (FilteredCursor (CursorStack n)))

instance : StoppingCursor Cursor where
  stops c := (Cursor.carries_mk c.filters).stops (StoppingCursor.stops c.stack)

/-! ### Cursors of any kind -/

/-- **The calls made on a cursor tell where it stands and what it warns of.** Take a new
cursor of any kind, under any number of filters, and whatever was called on it before its
closing. Until a move has answered that there is no further row, its row is the number of
its moves, and it is before the first if there was none; from then on it is after the
last, where a move does nothing. The first move is a move before the first row and is
refused elsewhere. The warnings are those that were asked for since the last move to a
row or clearing. A call that fails, or that neither moves nor closes nor speaks of
warnings, changes nothing of this. -/
theorem Cursor.calls_tell_position (c : Cursor) (hnew : RowCursor.state c = {}) (cl : Client)
    (calls : List CursorCall) (hcalls : ∀ k ∈ calls, k ≠ .close) :
    let s := afterAll (c, cl) calls
    let xs := exchanges (c, cl) calls
    let st := RowCursor.state s.1
    (ended xs = false → st.row = moves xs ∧ (st.isBeforeFirst = true ↔ moves xs = 0) ∧
      st.isAfterLast = false) ∧
    (ended xs = true → st.row = 0 ∧ st.isBeforeFirst = false ∧ st.isAfterLast = true ∧
      CursorCall.next.run s = .ok false s) ∧
    (if st.isBeforeFirst then CursorCall.first.run s = CursorCall.next.run s
      else CursorCall.first.run s = .error (.forwardOnly "cannot rewind: first") s) ∧
    st.warnings = standingWarnings xs ∧
    ∀ k : CursorCall, (k.stays = true ∨ ∃ e, k.answer s = .error e) →
      let after := RowCursor.state (k.after s).1
      after.row = st.row ∧ after.isBeforeFirst = st.isBeforeFirst ∧
        after.isAfterLast = st.isAfterLast ∧ after.warnings = st.warnings := by
  intro s xs st
  have hopen : st.closed = false := by
    rw [LawfulCursor.closed_afterAll calls (c, cl) hcalls, hnew]
  have hposition : st.position = moves xs := by
    have h := TrackedCursor.position_afterAll (c, cl) calls
    rwa [hnew, Nat.zero_add] at h
  have hdone : st.done = ended xs := by
    have h := TrackedCursor.done_afterAll (c, cl) calls
    rwa [hnew, Bool.false_or] at h
  refine ⟨fun hmore => ?_, fun hend => ?_, ?_, ?_, fun k hk => ?_⟩
  · rw [hmore] at hdone
    simp [CursorState.row, CursorState.isBeforeFirst, CursorState.isAfterLast, hdone, hposition]
  · rw [hend] at hdone
    refine ⟨?_, ?_, hdone, StoppingCursor.stops s.1 hopen hdone s.2⟩
    · simp [CursorState.row, hdone]
    · simp [CursorState.isBeforeFirst, hdone]
  · have hfirst : CursorCall.first.run (s.1, s.2) = _ := RowCursor.first_apply hopen
    split_ifs with hbefore
    · exact hfirst.trans (if_pos hbefore)
    · exact hfirst.trans (if_neg hbefore)
  · exact LawfulCursor.warnings_afterAll (by rw [hnew]) (by rw [hnew]) calls hcalls
  · obtain ⟨hsame, hsameDone, hsameWarnings⟩ := LawfulCursor.samePlace_after hopen hk
    refine ⟨?_, ?_, hsameDone, hsameWarnings⟩
    · rw [CursorState.row, CursorState.row, hsame, hsameDone]
    · rw [CursorState.isBeforeFirst, CursorState.isBeforeFirst, hsame, hsameDone]

/-- The first move passes over a refused row and fails, the second finds the accepted
row; the direction asked for before it is forgotten, the one after it is not. -/
theorem position_told_past_failure :
    let row (n : Int64) : Event := .ok ⟨none, .ofList [("n", .int64 n)]⟩
    let records : RecordCursor :=
      { home := ⟨"test", "t"⟩
        columns := [{ name := "n", schema := "test", table := "t" }]
        settings := {}
        stream := { pending := [row 1, .error (.storage "down"), row 5, row 2] } }
    let c := (Cursor.ofRecord records).filtered (.compares .integer "n" .greater (.int64 3))
    let cl : Client := { store := .memory {} }
    let calls : List CursorCall :=
      [.setFetchDirection .reverse, .next, .next, .setFetchDirection .unknown, .isLast]
    RowCursor.state c = {} ∧ (∀ k ∈ calls, k ≠ .close) ∧
      CursorCall.next.answer (afterAll (c, cl) [.setFetchDirection .reverse]) =
        .error (.storage "down") ∧
      (RowCursor.state (afterAll (c, cl) calls).1).row = 1 ∧
      (RowCursor.state (afterAll (c, cl) calls).1).warnings =
        ["fetch direction Unknown is not supported; using Forward"] ∧
      CursorCall.first.run (afterAll (c, cl) calls) =
        .error (.forwardOnly "cannot rewind: first") (afterAll (c, cl) calls) ∧
      (RowCursor.state (afterAll (c, cl) (calls ++ [.next])).1).row = 0 := by
  intro row records c cl calls
  have hnew : RowCursor.state c = {} := rfl
  have hcalls : ∀ k ∈ calls ++ [.next], k ≠ .close := by
    intro k hk hclose
    subst hclose
    simp [calls] at hk
  have hfew : ∀ k ∈ calls, k ≠ .close := fun k hk => hcalls k (List.mem_append_left _ hk)
  have hmore : ended (exchanges (c, cl) calls) = false := by decide +kernel
  have hend : ended (exchanges (c, cl) (calls ++ [.next])) = true := by decide +kernel
  have hmoved : moves (exchanges (c, cl) calls) = 1 := by decide +kernel
  have hstanding : standingWarnings (exchanges (c, cl) calls) =
      ["fetch direction Unknown is not supported; using Forward"] := by decide +kernel
  have hfailed : CursorCall.next.answer (afterAll (c, cl) [.setFetchDirection .reverse]) =
      .error (.storage "down") := by decide +kernel
  obtain ⟨hrow, -, hfirst, hwarnings, -⟩ := Cursor.calls_tell_position c hnew cl calls hfew
  obtain ⟨-, hlast, -⟩ := Cursor.calls_tell_position c hnew cl (calls ++ [.next]) hcalls
  obtain ⟨hone, hbefore, -⟩ := hrow hmore
  have hnot : ¬ (RowCursor.state (afterAll (c, cl) calls).1).isBeforeFirst = true := by
    rw [hbefore, hmoved]
    exact one_ne_zero
  rw [if_neg hnot] at hfirst
  exact ⟨hnew, hfew, hfailed, hone.trans hmoved, hwarnings.trans hstanding, hfirst, (hlast hend).1⟩

end KeyedRows
