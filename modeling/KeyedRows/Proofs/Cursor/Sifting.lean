/-
# What a filtered cursor finds

A test that asks for values only has a verdict on every record, and running it
takes nothing from the stream (`run_reads`). Told these verdicts, the events of
a stream are findings: a record that is accepted, a failure of the stream, a
record on which the test fails, and nothing for a refused record. A move comes
to the first finding ahead (`seek_finds`), any other call to none but a failure
of the stream (`call_sifted`). So what calls found and what is still to be found
are all findings of the stream, each once and in order.

Key definitions: `OnlyReads`, `RowTest.verdict`, `Finding`, `findings`,
`Exchange.found`, `Sift`, `Sifting`.
Key theorem: **`sifting_of_calls`**.
-/
import KeyedRows.Proofs.Cursor.Filtered

namespace KeyedRows

namespace RowTest

/-- The test asks for nothing but values. -/
def OnlyReads : RowTest → Prop
  | answer _ => True
  | object _ next => ∀ v, (next v).OnlyReads
  | row _ => False
  | metadata _ => False
  | call _ _ => False

/-- What such a test answers where the labels have these values. -/
def verdict (values : String → Except Error Value) :
    (test : RowTest) → test.OnlyReads → Except Error Bool
  | answer a, _ => a
  | object label next, h => (next (values label)).verdict values (h (values label))
  | row _, h => h.elim
  | metadata _, h => h.elim
  | call _ _, h => h.elim

/-! #### The tests of a HAVING clause -/

theorem onlyReads_value (label : String) {next : Value → RowTest}
    (h : ∀ v, (next v).OnlyReads) : (value label next).OnlyReads
  | .ok v => h v
  | .error _ => trivial

theorem onlyReads_compares (type : Comparable) (label : String) (r : Relation) (bound : Value) :
    (compares type label r bound).OnlyReads :=
  onlyReads_value label fun _ => trivial

theorem onlyReads_isNull (label : String) : (isNull label).OnlyReads :=
  onlyReads_value label fun _ => trivial

theorem OnlyReads.andThen {k : Bool → RowTest} (hk : ∀ b, (k b).OnlyReads) :
    ∀ {test : RowTest}, test.OnlyReads → (test.andThen k).OnlyReads
  | .answer (.ok b), _ => hk b
  | .answer (.error _), _ => trivial
  | .object _ _, h => fun v => OnlyReads.andThen hk (h v)
  | .row _, h => h.elim
  | .metadata _, h => h.elim
  | .call _ _, h => h.elim

theorem OnlyReads.negate {test : RowTest} (h : test.OnlyReads) : test.negate.OnlyReads := by
  have hconst : ∀ b, (const !b).OnlyReads := fun _ => trivial
  exact h.andThen hconst

theorem onlyReads_all : ∀ {tests : List RowTest}, (∀ t ∈ tests, t.OnlyReads) →
    (all tests).OnlyReads
  | [], _ => trivial
  | t :: ts, h => by
    have ih := onlyReads_all fun t' ht' => h t' (List.mem_cons_of_mem t ht')
    refine (h t List.mem_cons_self).andThen fun b => ?_
    cases b
    · trivial
    · exact ih

theorem onlyReads_any : ∀ {tests : List RowTest}, (∀ t ∈ tests, t.OnlyReads) →
    (any tests).OnlyReads
  | [], _ => trivial
  | t :: ts, h => by
    have ih := onlyReads_any fun t' ht' => h t' (List.mem_cons_of_mem t ht')
    refine (h t List.mem_cons_self).andThen fun b => ?_
    cases b
    · exact ih
    · trivial

end RowTest

open CursorM CursorCall

/-! ### Findings -/

/-- What a reader behind a filter comes to: a record that the test accepts, a
failure of the stream, or a record on which the test fails. -/
inductive Finding where
  | accepted (r : Record)
  | failed (e : Error)
  | untested (r : Record) (e : Error)

namespace Finding

def accepted? : Finding → Option Record
  | accepted r => some r
  | _ => none

/-- What an event is to this reader; a refused record is nothing. -/
def ofEvent (verdict : Record → Except Error Bool) : Event → Option Finding
  | .error e => some (.failed e)
  | .ok r =>
    match verdict r with
    | .ok true => some (.accepted r)
    | .ok false => none
    | .error e => some (.untested r e)

end Finding

def findings (verdict : Record → Except Error Bool) (events : List Event) : List Finding :=
  events.filterMap (Finding.ofEvent verdict)

/-- The records that the test accepts, in order. -/
def satisfying (verdict : Record → Except Error Bool) (events : List Event) : List Record :=
  (records events).filter fun r =>
    match verdict r with
    | .ok b => b
    | .error _ => false

section

variable {verdict : Record → Except Error Bool} {r : Record} {e : Error} {rest : List Event}

theorem findings_failed : findings verdict (.error e :: rest) = .failed e :: findings verdict rest :=
  rfl

theorem findings_accepted (h : verdict r = .ok true) :
    findings verdict (.ok r :: rest) = .accepted r :: findings verdict rest := by
  simp [findings, Finding.ofEvent, h]

theorem findings_refused (h : verdict r = .ok false) :
    findings verdict (.ok r :: rest) = findings verdict rest := by
  simp [findings, Finding.ofEvent, h]

theorem findings_untested (h : verdict r = .error e) :
    findings verdict (.ok r :: rest) = .untested r e :: findings verdict rest := by
  simp [findings, Finding.ofEvent, h]

/-- The records that are accepted are those that satisfy the test. -/
theorem accepted_findings (verdict : Record → Except Error Bool) : ∀ events : List Event,
    (findings verdict events).filterMap Finding.accepted? = satisfying verdict events
  | [] => rfl
  | .error e :: rest => accepted_findings verdict rest
  | .ok r :: rest => by
    have ih := accepted_findings verdict rest
    unfold satisfying at ih ⊢
    rw [records_ok_cons]
    rcases h : verdict r with e | b
    · rw [findings_untested h, List.filter_cons_of_neg (by simp [h])]
      exact ih
    · cases b with
      | false =>
        rw [findings_refused h, List.filter_cons_of_neg (by simp [h])]
        exact ih
      | true =>
        rw [findings_accepted h, List.filter_cons_of_pos (by simp [h])]
        exact congrArg (r :: ·) ih

end

/-- What a call found: the row that it moved to, a failure that it took from the
stream, or a later row under the filter on which it failed. -/
def Exchange.found (x : Exchange (FilteredCursor RecordCursor)) : Option Finding :=
  if x.moved? = some true then x.after.1.inner.current.map .accepted
  else if (failures x.after.1.inner.stream.events).length <
      (failures x.before.1.inner.stream.events).length then x.error?.map .failed
  else if x.before.1.inner.state.position < x.after.1.inner.state.position then
    x.error?.bind fun e => x.after.1.inner.current.map fun r => .untested r e
  else none

/-! ### Moving under the filter -/

namespace RecordCursor

/-- Running the test of a row only looks, and answers with the verdict on its
record. -/
theorem run_reads {r : Record} : ∀ (test : RowTest) (h : test.OnlyReads) (c : RecordCursor)
    (cl : Client), WellPlaced c → c.current = some r → ∃ t : RecordCursor × Client,
      Looked c t.1 ∧ test.run (c, cl) =
        (ofExcept (test.verdict (reading c.columns c.settings r) h) : CursorM RecordCursor Bool) t
  | .answer a, _, c, cl, hc, _ => ⟨(c, cl), .refl hc, rfl⟩
  | .object label next, h, c, cl, hc, hr => by
    have hl : Looked c ((CursorCall.getObject label).after (c, cl)).1 := getObject_looked hc label
    have hvalue := (reads_of_current (s := (c, cl)) hc hr).getObject label
    obtain ⟨t, ht, hrun⟩ := run_reads (next (reading c.columns c.settings r label)) (h _) _
      ((CursorCall.getObject label).after (c, cl)).2 hl.placed (hl.place.current.trans hr)
    refine ⟨t, hl.trans ht, ?_⟩
    rw [hl.place.columns, hl.place.settings] at hrun
    rw [RowTest.run_object, hvalue]
    exact hrun
  | .row _, h, _, _, _, _ => h.elim
  | .metadata _, h, _, _, _, _ => h.elim
  | .call _ _, h, _, _, _, _ => h.elim

/-- A cursor between two calls, over these columns. -/
structure Fits (columns : List Column) (settings : Settings) (c : RecordCursor) : Prop where
  sameColumns : c.columns = columns
  sameSettings : c.settings = settings
  placed : WellPlaced c

/-- Where moving to an accepted row ends: at the first finding ahead, or at the
end if there is none. -/
inductive Found (columns : List Column) (settings : Settings) (verdict : Record → Except Error Bool)
    (c : RecordCursor) : EStateM.Result Error (RecordCursor × Client) Bool → Prop where
  | accepted {t : RecordCursor × Client} (r : Record) (fits : Fits columns settings t.1)
      (current : t.1.current = some r)
      (found : findings verdict c.ahead = .accepted r :: findings verdict t.1.ahead) :
      Found columns settings verdict c (.ok true t)
  | ended {t : RecordCursor × Client} (fits : Fits columns settings t.1)
      (before : findings verdict c.ahead = []) (after : findings verdict t.1.ahead = []) :
      Found columns settings verdict c (.ok false t)
  | failed {t : RecordCursor × Client} (e : Error) (fits : Fits columns settings t.1)
      (found : findings verdict c.ahead = .failed e :: findings verdict t.1.ahead)
      (taken : failures c.ahead = e :: failures t.1.ahead) :
      Found columns settings verdict c (.error e t)
  | untested {t : RecordCursor × Client} (r : Record) (e : Error) (fits : Fits columns settings t.1)
      (current : t.1.current = some r)
      (found : findings verdict c.ahead = .untested r e :: findings verdict t.1.ahead)
      (kept : failures c.ahead = failures t.1.ahead)
      (passed : c.state.position < t.1.state.position) :
      Found columns settings verdict c (.error e t)

variable {columns : List Column} {settings : Settings} {verdict : Record → Except Error Bool}
  {c d : RecordCursor}

theorem Fits.looked (h : Fits columns settings c) (hl : Looked c d) : Fits columns settings d :=
  ⟨hl.place.columns.trans h.sameColumns, hl.place.settings.trans h.sameSettings, hl.placed⟩

theorem Fits.took {e : Error} (h : Fits columns settings c) (ht : Took c e d) :
    Fits columns settings d :=
  ⟨ht.place.columns.trans h.sameColumns, ht.place.settings.trans h.sameSettings, ht.placed⟩

/-- From behind refused rows the same is found. -/
theorem Found.of_refused {res : EStateM.Result Error (RecordCursor × Client) Bool}
    (h : Found columns settings verdict d res)
    (hfindings : findings verdict c.ahead = findings verdict d.ahead)
    (hfailures : failures c.ahead = failures d.ahead)
    (hposition : c.state.position ≤ d.state.position) : Found columns settings verdict c res := by
  cases h with
  | accepted r hfit hcur hf => exact .accepted r hfit hcur (hfindings.trans hf)
  | ended hfit h0 h0' => exact .ended hfit (hfindings.trans h0) h0'
  | failed e hfit hf ht => exact .failed e hfit (hfindings.trans hf) (hfailures.trans ht)
  | untested r e hfit hcur hf hk hp =>
    exact .untested r e hfit hcur (hfindings.trans hf) (hfailures.trans hk) (by omega)

/-- **Moving to an accepted row comes to the first finding ahead**, with a move
for every event ahead and one more. -/
theorem seek_finds {test : RowTest} (h : test.OnlyReads) : ∀ (moves : ℕ) (c : RecordCursor)
    (cl : Client), Fits columns settings c → c.ahead.length < moves →
      Found columns settings (fun r => test.verdict (reading columns settings r) h) c
        (FilteredCursor.seek test moves (c, cl))
  | 0, _, _, _, hlt => absurd hlt (Nat.not_lt_zero _)
  | moves + 1, c, cl, hc, hlt => by
    have hnext : (RowCursor.next : CursorM RecordCursor Bool) = next := rfl
    rw [FilteredCursor.seek, bind_apply, hnext]
    rcases next_cases hc.placed cl with ⟨r, d, hn, hd, ha, hcol, hset, hcur, hst⟩ |
        ⟨d, hn, hd, h0, h0', hcol, hset, -⟩ | ⟨e, d, hn, ht, -⟩
    · have hfit : Fits columns settings d :=
        ⟨hcol.trans hc.sameColumns, hset.trans hc.sameSettings, hd⟩
      have hstep : d.state.position = c.state.position + 1 := by rw [hst]; rfl
      obtain ⟨t, hl, hrun⟩ := run_reads test h d cl hd hcur
      rw [hfit.sameColumns, hfit.sameSettings] at hrun
      simp only [hn, if_true, bind_apply, hrun]
      have hposition : t.1.state.position = c.state.position + 1 :=
        hl.place.position.trans hstep
      have hcurrent : t.1.current = some r := hl.place.current.trans hcur
      rcases hv : test.verdict (reading columns settings r) h with e | b
      · refine .untested r e (hfit.looked hl) hcurrent ?_ ?_ (by omega)
        · rw [ha, findings_untested hv, hl.ahead]
        · rw [ha, hl.ahead, failures_ok_cons]
      · cases b with
        | true =>
          refine .accepted r (hfit.looked hl) hcurrent ?_
          rw [ha, findings_accepted hv, hl.ahead]
        | false =>
          -- a refused row costs one event ahead and one move
          have hfewer : t.1.ahead.length < moves := by
            rw [ha, List.length_cons, ← hl.ahead] at hlt
            omega
          refine (seek_finds h moves t.1 t.2 (hfit.looked hl) hfewer).of_refused ?_ ?_ (by omega)
          · rw [ha, findings_refused hv, hl.ahead]
          · rw [ha, hl.ahead, failures_ok_cons]
    · have hfit : Fits columns settings d :=
        ⟨hcol.trans hc.sameColumns, hset.trans hc.sameSettings, hd⟩
      simp only [hn]
      exact .ended hfit (by rw [h0]; rfl) (by rw [h0']; rfl)
    · simp only [hn]
      refine .failed e (hc.took ht) ?_ ?_
      · rw [ht.ahead, findings_failed]
      · rw [ht.ahead, failures_error_cons]

/-- The moves that a filter allows are enough. -/
theorem ahead_lt_remaining (c : RecordCursor) : c.ahead.length < RowCursor.remaining c + 1 := by
  have hremaining : RowCursor.remaining c = c.replay.toList.length + c.stream.pending.length := rfl
  have hevents : c.stream.events.length ≤ c.stream.pending.length := List.length_filter_le ..
  rw [hremaining, ahead, List.length_append, List.length_map]
  omega

end RecordCursor

/-! ### What one call finds -/

namespace FilteredCursor

open RecordCursor (Fits Looked Took Asked WellPlaced Found reading)

/-- The number of the row is as it was. -/
def SameCount (s t : CursorState) : Prop := t.position = s.position ∧ t.done = s.done

/-- What a call did: it came to the first finding ahead, or to the end because
there was none, or it found nothing and left all findings ahead. -/
inductive Sift (verdict : Record → Except Error Bool) (x : Exchange (FilteredCursor RecordCursor)) :
    Prop where
  | accepted (r : Record) (answer : x.moved? = some true) (found : x.found = some (.accepted r))
      (ahead : findings verdict x.before.1.inner.ahead =
        .accepted r :: findings verdict x.after.1.inner.ahead)
      (current : x.after.1.inner.current = some r)
      (state : x.after.1.state = x.before.1.state.advance)
  | failed (e : Error) (asks : x.call.asksStream = true) (answer : x.error? = some e)
      (found : x.found = some (.failed e))
      (ahead : findings verdict x.before.1.inner.ahead =
        .failed e :: findings verdict x.after.1.inner.ahead)
      (state : SameCount x.before.1.state x.after.1.state)
  | untested (r : Record) (e : Error) (moves : x.call = .next ∨ x.call = .first)
      (answer : x.error? = some e) (found : x.found = some (.untested r e))
      (ahead : findings verdict x.before.1.inner.ahead =
        .untested r e :: findings verdict x.after.1.inner.ahead)
      (state : SameCount x.before.1.state x.after.1.state)
  | ended (answer : x.moved? = some false) (found : x.found = none)
      (before : findings verdict x.before.1.inner.ahead = [])
      (after : findings verdict x.after.1.inner.ahead = [])
      (state : x.after.1.state = x.before.1.state.finish)
  | stayed (call : x.call ≠ .next) (answer : x.moved? = none) (found : x.found = none)
      (ahead : findings verdict x.before.1.inner.ahead =
        findings verdict x.after.1.inner.ahead)
      (state : SameCount x.before.1.state x.after.1.state)
      (refused : ∀ e, x.error? = some e → x.call.asksStream = true → x.call ≠ .isLast →
        Refuses (x.before.1.inner, x.before.2) x.call e)

/-- A filtered cursor between two calls, over these columns. -/
structure Ready (test : RowTest) (columns : List Column) (settings : Settings)
    (verdict : Record → Except Error Bool) (f : FilteredCursor RecordCursor) : Prop where
  sameTest : f.test = test
  inner : Fits columns settings f.inner
  isOpen : f.state.closed = false
  done : f.state.done = true → findings verdict f.inner.ahead = []

variable {test : RowTest} {columns : List Column} {settings : Settings}
  {verdict : Record → Except Error Bool} {x : Exchange (FilteredCursor RecordCursor)}
  {f : FilteredCursor RecordCursor} {cl : Client} {k : CursorCall}

/-! #### What counts as found -/

theorem found_of_moved {r : Record} (hm : x.moved? = some true)
    (hr : x.after.1.inner.current = some r) : x.found = some (.accepted r) := by
  simp [Exchange.found, hm, hr]

theorem found_of_taken {e : Error} (he : x.error? = some e)
    (taken : failures x.before.1.inner.ahead = e :: failures x.after.1.inner.ahead) :
    x.found = some (.failed e) := by
  have hlt : (failures x.after.1.inner.stream.events).length <
      (failures x.before.1.inner.stream.events).length := by
    rw [← RecordCursor.failures_ahead, ← RecordCursor.failures_ahead, taken, List.length_cons]
    omega
  simp [Exchange.found, Exchange.moved?_of_error he, hlt, he]

/-- Where no failure was taken and no row accepted, a failed call found the row
under the filter, if it moved to it. -/
theorem found_of_kept (hm : x.moved? ≠ some true)
    (kept : failures x.before.1.inner.ahead = failures x.after.1.inner.ahead) :
    x.found = if x.before.1.inner.state.position < x.after.1.inner.state.position then
      x.error?.bind fun e => x.after.1.inner.current.map fun r => .untested r e else none := by
  have hnot : ¬ (failures x.after.1.inner.stream.events).length <
      (failures x.before.1.inner.stream.events).length := by
    rw [← RecordCursor.failures_ahead, ← RecordCursor.failures_ahead, kept]
    omega
  rw [Exchange.found, if_neg hm, if_neg hnot]

theorem found_of_moved_false (hm : x.moved? = some false) : x.found = none := by
  cases he : x.error? with
  | none => simp [Exchange.found, hm, he]
  | some e =>
    rw [Exchange.moved?_of_error he] at hm
    cases hm

/-! #### Moves -/

/-- What holds after a call of a cursor that is not closed. -/
structure Sifted (test : RowTest) (columns : List Column) (settings : Settings)
    (verdict : Record → Except Error Bool) (x : Exchange (FilteredCursor RecordCursor)) :
    Prop where
  ready : Ready test columns settings verdict x.after.1
  did : Sift verdict x

/-- **A move comes to the first finding ahead.** -/
theorem next_sifted (h : test.OnlyReads)
    (hverdict : verdict = fun r => test.verdict (reading columns settings r) h)
    (hf : Ready test columns settings verdict f) (cl : Client) :
    Sifted test columns settings verdict ⟨(f, cl), .next⟩ := by
  have hrun : CursorCall.next.run (f, cl) = next (f, cl) := rfl
  cases hdone : f.state.done with
  | true =>
    have hr := hrun.trans (next_of_done hf.isOpen hdone)
    have hafter : (Exchange.mk (f, cl) .next).after = (f, cl) := after_ok hr
    have hm := Exchange.moved?_next hr
    have hnone := hf.done hdone
    refine ⟨?_, .ended hm (found_of_moved_false hm) hnone ?_ ?_⟩
    all_goals rw [hafter]
    · exact hf
    · exact hnone
    · simp [CursorState.finish, ← hdone]
  | false =>
    have hseek := RecordCursor.seek_finds h (RowCursor.remaining f.inner + 1) f.inner cl hf.inner
      (RecordCursor.ahead_lt_remaining f.inner)
    rw [← hverdict, ← hf.sameTest] at hseek
    have hnext : CursorCall.next.run (f, cl) = _ := next_apply hf.isOpen hdone
    have hnot : f.state.advance.done = true → False := by simp [CursorState.advance, hdone]
    generalize hres : seek f.test (RowCursor.remaining f.inner + 1) (f.inner, cl) = res
      at hseek hnext
    cases hseek with
    | @accepted t r hfit hcur hfound =>
      have hafter : (Exchange.mk (f, cl) .next).after = _ := after_ok hnext
      have hm := Exchange.moved?_next hnext
      have hcurrent : (Exchange.mk (f, cl) .next).after.1.inner.current = some r := by
        rw [hafter]
        exact hcur
      refine ⟨?_, .accepted r hm (found_of_moved hm hcurrent) ?_ hcurrent ?_⟩
      all_goals rw [hafter]
      · exact ⟨hf.sameTest, hfit, hf.isOpen, fun hd => (hnot hd).elim⟩
      · exact hfound
    | @ended t hfit h0 h0' =>
      have hafter : (Exchange.mk (f, cl) .next).after = _ := after_ok hnext
      have hm := Exchange.moved?_next hnext
      refine ⟨?_, .ended hm (found_of_moved_false hm) h0 ?_ ?_⟩
      all_goals rw [hafter]
      · exact ⟨hf.sameTest, hfit, hf.isOpen, fun _ => h0'⟩
      · exact h0'
    | @failed t e hfit hfound htaken =>
      have hafter : (Exchange.mk (f, cl) .next).after = _ := after_error hnext
      have he := Exchange.error?_error hnext
      refine ⟨?_, .failed e rfl he (found_of_taken he ?_) ?_ ?_⟩
      all_goals rw [hafter]
      · exact ⟨hf.sameTest, hfit, hf.isOpen, fun hd => absurd hd (by simp [hdone])⟩
      · exact htaken
      · exact hfound
      · exact ⟨rfl, rfl⟩
    | @untested t r e hfit hcur hfound hkept hpassed =>
      -- the cursor under the filter has moved, the filtered one keeps its number
      have hafter : (Exchange.mk (f, cl) .next).after = _ := after_error hnext
      have he := Exchange.error?_error hnext
      have hm := Exchange.moved?_of_error he
      refine ⟨?_, .untested r e (.inl rfl) he ?_ ?_ ?_⟩
      · rw [hafter]
        exact ⟨hf.sameTest, hfit, hf.isOpen, fun hd => absurd hd (by simp [hdone])⟩
      · rw [found_of_kept (by simp [hm]) (by rw [hafter]; exact hkept), hafter, if_pos hpassed, he,
          hcur]
        rfl
      all_goals rw [hafter]
      · exact hfound
      · exact ⟨rfl, rfl⟩

/-- The first move is a move, or is refused. -/
theorem first_sifted (h : test.OnlyReads)
    (hverdict : verdict = fun r => test.verdict (reading columns settings r) h)
    (hf : Ready test columns settings verdict f) (cl : Client) :
    Sifted test columns settings verdict ⟨(f, cl), .first⟩ := by
  have hopen : (RowCursor.state f).closed = false := hf.isOpen
  have hrun : CursorCall.first.run (f, cl) = _ := RowCursor.first_apply hopen
  split_ifs at hrun with hb
  · obtain ⟨hafter, hmoved, herror⟩ := RowCursor.first_same hrun
    have hfound : (Exchange.mk (f, cl) CursorCall.first).found =
        (Exchange.mk (f, cl) CursorCall.next).found := by
      simp only [Exchange.found, hafter, hmoved, herror]
    obtain ⟨hready, hdid⟩ := next_sifted h hverdict hf cl
    rw [← hafter] at hready
    refine ⟨hready, ?_⟩
    cases hdid with
    | accepted r hm hx ha hcur hst =>
      rw [← hafter] at ha hcur hst
      exact .accepted r (hmoved.trans hm) (hfound.trans hx) ha hcur hst
    | failed e _ he hx ha hst =>
      rw [← hafter] at ha hst
      exact .failed e rfl (herror.trans he) (hfound.trans hx) ha hst
    | untested r e _ he hx ha hst =>
      rw [← hafter] at ha hst
      exact .untested r e (.inr rfl) (herror.trans he) (hfound.trans hx) ha hst
    | ended hm hx h0 h0' hst =>
      rw [← hafter] at h0' hst
      exact .ended (hmoved.trans hm) (hfound.trans hx) h0 h0' hst
    | stayed hk => exact absurd rfl hk
  · have hafter : (Exchange.mk (f, cl) .first).after = (f, cl) := after_error hrun
    have he := Exchange.error?_error hrun
    have hm := Exchange.moved?_of_error he
    refine ⟨by rw [hafter]; exact hf, .stayed nofun hm ?_ (by rw [hafter]) ?_ fun e he' _ _ => ?_⟩
    · rw [found_of_kept (by simp [hm]) (by rw [hafter]), if_neg (by rw [hafter]; exact lt_irrefl _)]
    · rw [hafter]
      exact ⟨rfl, rfl⟩
    · rw [he] at he'
      cases he'
      rfl

/-! #### Other calls -/

/-- A call that leaves the place and all that lies ahead found nothing. -/
theorem stayed_sifted (hf : Ready test columns settings verdict f) {g : FilteredCursor RecordCursor}
    (hafter : (k.after (f, cl)).1 = g) (htest : g.test = f.test)
    (hlooked : Looked f.inner g.inner) (hcount : SameCount f.state g.state)
    (hclosed : g.state.closed = f.state.closed) (hk : k ≠ .next)
    (hm : k.moved? (k.answer (f, cl)) = none)
    (href : ∀ e, k.answer (f, cl) = .error e → k.asksStream = true → k ≠ .isLast →
      Refuses (f.inner, cl) k e) :
    Sifted test columns settings verdict ⟨(f, cl), k⟩ := by
  subst hafter
  have hmoved : (Exchange.mk (f, cl) k).moved? = none := hm
  have hahead : (Exchange.mk (f, cl) k).after.1.inner.ahead = f.inner.ahead := hlooked.ahead
  have hposition : (Exchange.mk (f, cl) k).after.1.inner.state.position =
    f.inner.state.position := hlooked.place.position
  have hfound : (Exchange.mk (f, cl) k).found = none := by
    rw [found_of_kept (by simp [hmoved]) (by rw [hahead]), if_neg (by rw [hposition]; simp)]
  refine ⟨⟨htest.trans hf.sameTest, hf.inner.looked hlooked, hclosed.trans hf.isOpen, fun hd => ?_⟩,
    .stayed hk hmoved hfound (by rw [hahead]) hcount fun e he hasks hlast =>
      href e (Exchange.error?_eq_some.mp he) hasks hlast⟩
  rw [hahead]
  exact hf.done (hcount.2 ▸ hd)

/-- A call that is passed to the cursor under the filter, which it asks for
metadata. -/
theorem asked_sifted (hf : Ready test columns settings verdict f)
    (hrun : k.run (f, cl) = onInner k.run (f, cl))
    (hask : Asked f.inner (Refuses (f.inner, cl) k) (k.run (f.inner, cl))) (hk : k ≠ .next)
    (hasks : k.asksStream = true) (hm : ∀ a, k.moved? a = none) :
    Sifted test columns settings verdict ⟨(f, cl), k⟩ := by
  cases hr : k.run (f.inner, cl) with
  | ok a t =>
    rw [hr] at hask
    have hrf := hrun.trans (onInner_ok hr)
    refine stayed_sifted hf (congrArg Prod.fst (after_ok hrf)) rfl hask ⟨rfl, rfl⟩ rfl hk (hm _) ?_
    intro e he
    rw [answer_ok hrf] at he
    cases he
  | error e t =>
    rw [hr] at hask
    have hrf := hrun.trans (onInner_error hr)
    rcases hask with ht | ⟨hl, href⟩
    · have hafter : (Exchange.mk (f, cl) k).after = _ := after_error hrf
      have he := Exchange.error?_error hrf
      refine ⟨?_, .failed e hasks he (found_of_taken he ?_) ?_ ?_⟩
      all_goals rw [hafter]
      · refine ⟨hf.sameTest, hf.inner.took ht, hf.isOpen, fun hd => ?_⟩
        have hnone := hf.done hd
        rw [ht.ahead, findings_failed] at hnone
        cases hnone
      · rw [ht.ahead, failures_error_cons]
      · rw [ht.ahead, findings_failed]
      · exact ⟨rfl, rfl⟩
    · refine stayed_sifted hf (congrArg Prod.fst (after_error hrf)) rfl hl ⟨rfl, rfl⟩ rfl hk (hm _) ?_
      intro e' he' _ _
      rw [answer_error hrf] at he'
      cases he'
      exact href

theorem metadata_onInner (hopen : f.state.closed = false) (cl : Client) :
    CursorCall.metadata.run (f, cl) = onInner CursorCall.metadata.run (f, cl) := by
  have hrun : CursorCall.metadata.run (f, cl) = getMetadata (f, cl) := rfl
  rw [hrun, getMetadata]
  simp only [bind_apply, cursor_apply, CursorState.ensureOpen, hopen]
  rfl

theorem findColumn_onInner (hopen : f.state.closed = false) (label : String) (cl : Client) :
    (CursorCall.findColumn label).run (f, cl) =
      onInner (CursorCall.findColumn label).run (f, cl) := by
  have hmetadata : RowCursor.metadata (f, cl) = _ := metadata_onInner hopen cl
  have hinner : (CursorCall.findColumn label).run (f.inner, cl) = _ :=
    RowCursor.findColumn_apply label
  rw [CursorCall.run, RowCursor.findColumn_apply, hmetadata]
  cases hr : CursorCall.metadata.run (f.inner, cl) with
  | error e t =>
    rw [show RowCursor.metadata (f.inner, cl) = _ from hr] at hinner
    rw [onInner_error hr, onInner_error hinner]
  | ok m t =>
    rw [show RowCursor.metadata (f.inner, cl) = _ from hr] at hinner
    rw [onInner_ok hr]
    cases hfind : m.findColumn label with
    | ok i =>
      simp only [hfind] at hinner
      rw [onInner_ok hinner]
      simp only [hfind]
      rfl
    | error e =>
      simp only [hfind] at hinner
      rw [onInner_error hinner]
      simp only [hfind]
      rfl

theorem getObject_inner (label : String) :
    ((CursorCall.getObject label).after (f, cl)).1.inner = f.inner ∨
      ((CursorCall.getObject label).after (f, cl)).1.inner =
        ((CursorCall.getObject label).after (f.inner, cl)).1 := by
  have hread := congrArg Prod.fst (under_getObject label (f, cl))
  rw [readCalls] at hread
  cases hrow : f.state.ensureRow with
  | error e =>
    rw [hrow] at hread
    exact .inl hread
  | ok u =>
    rw [hrow] at hread
    exact .inr hread

/-- The cursor under the filter, after the calls that leave it or read it. -/
theorem inner_of_call (hg : goes k = false)
    (hq : k.asksStream = false ∨ k = .isLast) (cl : Client) :
    (k.after (f, cl)).1.inner = f.inner ∨
      ∃ label, (k.after (f, cl)).1.inner = ((CursorCall.getObject label).after (f.inner, cl)).1 := by
  cases k with
  | next | first | close => cases hg
  | metadata | findColumn => rcases hq with h | h <;> cases h
  | readValue label => exact .inr ⟨label, congrArg Prod.fst (under_readValue label (f, cl))⟩
  | getObject label => exact (getObject_inner label).imp_right fun h => ⟨label, h⟩
  | get α label =>
    rw [RowCursor.get_after]
    exact (getObject_inner label).imp_right fun h => ⟨label, h⟩
  | setFetchDirection d =>
    left
    rcases RowCursor.setFetchDirection_after d (f, cl) with hd | ⟨text, hd⟩ <;> rw [hd]
    rfl
  | setFetchSize rows => exact .inl (by rw [RowCursor.setFetchSize_after])
  | isLast | clearWarnings | scroll | state => exact .inl rfl

/-- **Every call of an open filtered cursor comes to the first finding ahead, or
leaves all findings ahead.** -/
theorem call_sifted (h : test.OnlyReads)
    (hverdict : verdict = fun r => test.verdict (reading columns settings r) h)
    (hf : Ready test columns settings verdict f) (cl : Client) (hk : k ≠ .close) :
    Sifted test columns settings verdict ⟨(f, cl), k⟩ := by
  have hplaced := hf.inner.placed
  have hquiet : goes k = false → (k.asksStream = false ∨ k = .isLast) →
      Sifted test columns settings verdict ⟨(f, cl), k⟩ := by
    intro hg hq
    have hquiet : Quiet f (k.after (f, cl)).1 := quiet_of_call (.inl hplaced) hg
    have hlooked : Looked f.inner (k.after (f, cl)).1.inner := by
      rcases inner_of_call hg hq cl with hsame | ⟨label, hget⟩
      · rw [hsame]
        exact .refl hplaced
      · rw [hget]
        exact RecordCursor.getObject_looked hplaced label
    refine stayed_sifted hf rfl hquiet.test hlooked ⟨hquiet.position, hquiet.done⟩ hquiet.closed
      (by rintro rfl; cases hg) ?_ ?_
    · cases k with
      | next | first => cases hg
      | _ => rfl
    · intro e _ hasks hl
      rcases hq with hq | hq
      · rw [hasks] at hq
        cases hq
      · exact absurd hq hl
  cases k with
  | close => exact absurd rfl hk
  | next => exact next_sifted h hverdict hf cl
  | first => exact first_sifted h hverdict hf cl
  | metadata =>
    exact asked_sifted hf (metadata_onInner hf.isOpen cl)
      (RecordCursor.getMetadata_asked hplaced cl) nofun rfl fun _ => rfl
  | findColumn label =>
    exact asked_sifted hf (findColumn_onInner hf.isOpen label cl)
      (RecordCursor.findColumn_asked hplaced label cl) nofun rfl fun _ => rfl
  | isLast => exact hquiet rfl (.inr rfl)
  | _ => exact hquiet rfl (.inl rfl)

/-! ### What calls find -/

/-- **What a call found and what it leaves is what there was to be found.** -/
theorem Sift.ledger (h : Sift verdict x) :
    x.found.toList ++ findings verdict x.after.1.inner.ahead =
      findings verdict x.before.1.inner.ahead := by
  cases h with
  | accepted r _ hx ha => rw [hx, ha]; rfl
  | failed e _ _ hx ha => rw [hx, ha]; rfl
  | untested r e _ _ hx ha => rw [hx, ha]; rfl
  | ended _ hx h0 h0' => rw [hx, h0, h0']; rfl
  | stayed _ _ hx ha => rw [hx, ha]; rfl

/-- A failure that was taken from the stream is the answer. -/
theorem Sift.of_failed (h : Sift verdict x) {e : Error} (hx : x.found = some (.failed e)) :
    x.call.asksStream = true ∧ x.answer = .error e := by
  cases h with
  | failed e' hasks he hx' =>
    rw [hx'] at hx
    cases hx
    exact ⟨hasks, Exchange.error?_eq_some.mp he⟩
  | accepted _ _ hx' | untested _ _ _ _ hx' | ended _ hx' | stayed _ _ hx' =>
    rw [hx'] at hx
    cases hx

/-- A failure of the test is the answer of a move. -/
theorem Sift.of_untested (h : Sift verdict x) {r : Record} {e : Error}
    (hx : x.found = some (.untested r e)) :
    (x.call = .next ∨ x.call = .first) ∧ x.answer = .error e := by
  cases h with
  | untested r' e' hmove he hx' =>
    rw [hx'] at hx
    cases hx
    exact ⟨hmove, Exchange.error?_eq_some.mp he⟩
  | accepted _ _ hx' | failed _ _ _ hx' | ended _ hx' | stayed _ _ hx' =>
    rw [hx'] at hx
    cases hx

/-- A call fails with what it found, or refuses. -/
theorem Sift.of_error (h : Sift verdict x) {e : Error} (he : x.error? = some e)
    (hasks : x.call.asksStream = true) (hlast : x.call ≠ .isLast) :
    x.found = some (.failed e) ∨ (∃ r, x.found = some (.untested r e)) ∨
      Refuses (x.before.1.inner, x.before.2) x.call e := by
  cases h with
  | failed e' _ he' hx =>
    rw [he] at he'
    cases he'
    exact .inl hx
  | untested r e' _ he' hx =>
    rw [he] at he'
    cases he'
    exact .inr (.inl ⟨r, hx⟩)
  | stayed _ _ _ _ _ href => exact .inr (.inr (href e he hasks hlast))
  | accepted _ hm | ended hm =>
    rw [Exchange.moved?_of_error he] at hm
    cases hm

/-- The rows are counted that the test accepts, and no others. -/
theorem Sift.counted (h : Sift verdict x) :
    x.after.1.state.position = x.before.1.state.position + (if x.moved? = some true then 1 else 0) ∧
      (x.found.toList.filterMap Finding.accepted?).length =
        (if x.moved? = some true then 1 else 0) ∧
      (x.after.1.state.done = true → x.before.1.state.done = true ∨ x.moved? = some false) := by
  cases h with
  | accepted r hm hx _ _ hst => simp [hm, hx, hst, Finding.accepted?, CursorState.advance]
  | failed e _ he hx _ hst =>
    simp [Exchange.moved?_of_error he, hx, hst.1, hst.2, Finding.accepted?]
  | untested r e _ he hx _ hst =>
    simp [Exchange.moved?_of_error he, hx, hst.1, hst.2, Finding.accepted?]
  | ended hm hx _ _ hst => simp [hm, hx, hst, CursorState.finish]
  | stayed _ hm hx _ hst => simp [hm, hx, hst.1, hst.2]

/-- Where calls leave a filtered cursor, told from what they found. -/
structure Account (test : RowTest) (columns : List Column) (settings : Settings)
    (verdict : Record → Except Error Bool) (events : List Event)
    (xs : List (Exchange (FilteredCursor RecordCursor))) (f : FilteredCursor RecordCursor) :
    Prop where
  ready : Ready test columns settings verdict f
  ledger : xs.filterMap Exchange.found ++ findings verdict f.inner.ahead = findings verdict events
  counted : ((xs.filterMap Exchange.found).filterMap Finding.accepted?).length = moves xs
  position : f.state.position = moves xs
  done : f.state.done = true → ∃ x ∈ xs, x.moved? = some false

variable {events : List Event} {xs : List (Exchange (FilteredCursor RecordCursor))}

theorem Account.step (h : Account test columns settings verdict events xs x.before.1)
    (hx : Sifted test columns settings verdict x) :
    Account test columns settings verdict events (xs ++ [x]) x.after.1 := by
  have hfound : (xs ++ [x]).filterMap Exchange.found =
      xs.filterMap Exchange.found ++ x.found.toList := by
    cases hb : x.found <;> simp [hb]
  obtain ⟨hposition, hcounted, hdone⟩ := hx.did.counted
  refine ⟨hx.ready, ?_, ?_, ?_, fun hd => ?_⟩
  · rw [hfound, List.append_assoc, hx.did.ledger, h.ledger]
  · rw [hfound, List.filterMap_append, List.length_append, h.counted, hcounted, moves_append]
  · rw [hposition, h.position, moves_append]
  · rcases hdone hd with hb | hm
    · obtain ⟨y, hy, hm⟩ := h.done hb
      exact ⟨y, List.mem_append_left _ hy, hm⟩
    · exact ⟨x, by simp, hm⟩

/-- Calls that do not close keep the account. -/
theorem account_of_calls (h : test.OnlyReads)
    (hverdict : verdict = fun r => test.verdict (reading columns settings r) h)
    (hf : Account test columns settings verdict events [] f) (cl : Client)
    (calls : List CursorCall) (hk : ∀ k ∈ calls, k ≠ .close) :
    Account test columns settings verdict events (exchanges (f, cl) calls)
      (afterAll (f, cl) calls).1 := by
  induction calls using List.reverseRecOn with
  | nil => exact hf
  | append_singleton ks k ih =>
    have hks := ih fun k' hk' => hk k' (List.mem_append_left _ hk')
    rw [exchanges_append, afterAll_append]
    exact Account.step (x := ⟨afterAll (f, cl) ks, k⟩) hks
      (call_sifted h hverdict hks.ready _ (hk k (by simp)))

/-- What calls made of the events that lay ahead of the cursor under a filter, and
what any next call makes of them. -/
structure Sifting (verdict : Record → Except Error Bool) (events : List Event)
    (values : Record → String → Except Error Value)
    (xs : List (Exchange (FilteredCursor RecordCursor))) (s : FilteredCursor RecordCursor × Client) :
    Prop where
  /-- What was found, in order, and what is still to be found are all findings. -/
  ledger : xs.filterMap Exchange.found ++ findings verdict s.1.inner.ahead =
    findings verdict events
  /-- A move comes to the first of what is still to be found. -/
  next : (Exchange.mk s .next).found = (findings verdict s.1.inner.ahead).head?
  /-- The k-th move to a row is to the k-th record that satisfies the test, and
  the getters read it there. -/
  accepted : ∀ k, k ≠ .close → (Exchange.mk s k).moved? = some true → ∃ r,
    (satisfying verdict events)[moves xs]? = some r ∧
      (k.after s).1.inner.current = some r ∧ Reads (k.after s) (values r)
  /-- A failure of the stream is the answer of a call that asks the stream. -/
  failed : ∀ k e, k ≠ .close → (Exchange.mk s k).found = some (.failed e) →
    k.asksStream = true ∧ k.answer s = .error e
  /-- A failure of the test is the answer of a move. -/
  untested : ∀ k r e, k ≠ .close → (Exchange.mk s k).found = some (.untested r e) →
    (k = .next ∨ k = .first) ∧ k.answer s = .error e
  /-- Such calls have no other failures than these and their own. -/
  refusal : ∀ k e, k.asksStream = true → k ≠ .isLast → k.answer s = .error e →
    (Exchange.mk s k).found = some (.failed e) ∨
      (∃ r, (Exchange.mk s k).found = some (.untested r e)) ∨ Refuses (s.1.inner, s.2) k e
  /-- No next row is found only when everything was found, -/
  complete : CursorCall.next.answer s = .ok false ↔
    xs.filterMap Exchange.found = findings verdict events
  /-- and none is found ever after. -/
  forever : CursorCall.next.answer s = .ok false → ∀ more : List CursorCall,
    (∀ k ∈ more, k ≠ .close) → CursorCall.next.answer (afterAll s more) = .ok false
  /-- Until then the number of the row counts the moves to a row. -/
  row : (∀ x ∈ xs, x.moved? ≠ some false) → s.1.state.row = moves xs

theorem next_moved? {s : FilteredCursor RecordCursor × Client} {b : Bool} :
    (Exchange.mk s .next).moved? = some b ↔ CursorCall.next.answer s = .ok b := by
  have hm : (Exchange.mk s .next).moved? =
      CursorCall.next.moved? (CursorCall.next.answer s) := rfl
  rw [hm]
  cases CursorCall.next.answer s with
  | ok a => exact ⟨fun h => congrArg _ (Option.some.inj h), fun h => congrArg _ (Except.ok.inj h)⟩
  | error e => exact ⟨nofun, nofun⟩

/-- A move finds the first finding ahead, and no row if there is none. -/
theorem Sifted.next {s : FilteredCursor RecordCursor × Client}
    (h : Sifted test columns settings verdict ⟨s, .next⟩) :
    (Exchange.mk s .next).found = (findings verdict s.1.inner.ahead).head? ∧
      (CursorCall.next.answer s = .ok false ↔ findings verdict s.1.inner.ahead = []) := by
  rw [← next_moved?]
  cases h.did with
  | accepted r hm hx ha => simp [hm, hx, ha]
  | failed e _ he hx ha => simp [Exchange.moved?_of_error he, hx, ha]
  | untested r e _ he hx ha => simp [Exchange.moved?_of_error he, hx, ha]
  | ended hm hx h0 => simp [hm, hx, h0]
  | stayed hk => exact absurd rfl hk

/-- On a row the getters of a filtered cursor read the row under the filter. -/
theorem reads_of_inner {s : FilteredCursor RecordCursor × Client}
    (hf : Ready test columns settings verdict s.1) (hrow : s.1.state.onRow = true) {r : Record}
    (hr : s.1.inner.current = some r) : Reads s (reading columns settings r) := by
  obtain ⟨f, cl⟩ := s
  have hensure : (RowCursor.state f).ensureRow = .ok () :=
    CursorState.ensureRow_eq_ok.mpr ⟨hf.isOpen, hrow⟩
  have hinner := RecordCursor.reads_of_current (s := (f.inner, cl)) hf.inner.placed hr
  rw [hf.inner.sameColumns, hf.inner.sameSettings] at hinner
  refine RowCursor.reads_of_readValue hensure fun label => ?_
  have hrun : (CursorCall.readValue label).run (f, cl) =
      onInner (CursorCall.getObject label).run (f, cl) := rfl
  rw [← hinner.getObject label, CursorCall.answer, hrun, onInner_apply]
  cases (CursorCall.getObject label).answer (f.inner, cl) <;> rfl

/-- An accepted row is the record at its place among those that satisfy the
test. -/
theorem Account.accepted {s : FilteredCursor RecordCursor × Client}
    (h : Account test columns settings verdict events xs s.1)
    (hx : Sifted test columns settings verdict ⟨s, k⟩)
    (hm : (Exchange.mk s k).moved? = some true) : ∃ r,
      (satisfying verdict events)[moves xs]? = some r ∧
        (k.after s).1.inner.current = some r ∧ Reads (k.after s) (reading columns settings r) := by
  cases hx.did with
  | failed _ _ he | untested _ _ _ he =>
    rw [Exchange.moved?_of_error he] at hm
    cases hm
  | ended hm' | stayed _ hm' =>
    rw [hm] at hm'
    cases hm'
  | accepted r _ _ ha hcur hst =>
    refine ⟨r, ?_, hcur, reads_of_inner hx.ready ?_ hcur⟩
    · rw [← accepted_findings, ← h.ledger, ha, List.filterMap_append, ← h.counted,
        List.getElem?_append_right (le_refl _), Nat.sub_self]
      rfl
    · have hnot : s.1.state.done = false := by
        cases hd : s.1.state.done with
        | false => rfl
        | true =>
          have hnone := h.ready.done hd
          rw [ha] at hnone
          cases hnone
      rw [hst]
      simp [CursorState.onRow, CursorState.advance, hnot]

/-- Where nothing is to be found, no call finds a row. -/
theorem next_false_forever (h : test.OnlyReads)
    (hverdict : verdict = fun r => test.verdict (reading columns settings r) h)
    {s : FilteredCursor RecordCursor × Client} (hf : Ready test columns settings verdict s.1)
    (hnone : findings verdict s.1.inner.ahead = []) (more : List CursorCall)
    (hk : ∀ k ∈ more, k ≠ .close) : CursorCall.next.answer (afterAll s more) = .ok false := by
  have hstep : ∀ (s : FilteredCursor RecordCursor × Client) (k : CursorCall),
      Ready test columns settings verdict s.1 ∧ findings verdict s.1.inner.ahead = [] →
      k ≠ .close → Ready test columns settings verdict (k.after s).1 ∧
        findings verdict (k.after s).1.inner.ahead = [] := by
    rintro s k ⟨hready, hnil⟩ hclose
    have hx := call_sifted h hverdict hready s.2 hclose
    have hledger := hx.did.ledger
    rw [hnil] at hledger
    exact ⟨hx.ready, (List.append_eq_nil_iff.mp hledger).2⟩
  obtain ⟨hready, hlast⟩ := (exchanges_keep hstep more s ⟨hf, hnone⟩ hk).1
  have hx := call_sifted (k := .next) h hverdict hready (afterAll s more).2 nofun
  exact hx.next.2.mpr hlast

theorem Account.sifting (h : test.OnlyReads)
    (hverdict : verdict = fun r => test.verdict (reading columns settings r) h)
    {s : FilteredCursor RecordCursor × Client}
    (hs : Account test columns settings verdict events xs s.1) :
    Sifting verdict events (reading columns settings) xs s := by
  have hcall : ∀ {k}, k ≠ .close → Sifted test columns settings verdict ⟨s, k⟩ :=
    fun hk => call_sifted h hverdict hs.ready s.2 hk
  have hnext := (hcall (k := .next) nofun).next
  have hcomplete : findings verdict s.1.inner.ahead = [] ↔
      xs.filterMap Exchange.found = findings verdict events := by
    rw [← hs.ledger]
    exact List.self_eq_append_right.symm
  refine ⟨hs.ledger, hnext.1, fun k hk hm => hs.accepted (hcall hk) hm,
    fun k e hk hx => (hcall hk).did.of_failed hx, fun k r e hk hx => (hcall hk).did.of_untested hx,
    fun k e hasks hlast he => ?_, hnext.2.trans hcomplete,
    fun hend => next_false_forever h hverdict hs.ready (hnext.2.mp hend), fun hno => ?_⟩
  · have hk : k ≠ .close := by
      rintro rfl
      cases hasks
    exact (hcall hk).did.of_error (Exchange.error?_eq_some.mpr he) hasks hlast
  · have hdone : s.1.state.done = false := by
      cases hd : s.1.state.done with
      | false => rfl
      | true =>
        obtain ⟨x, hx, hm⟩ := hs.done hd
        exact absurd hm (hno x hx)
    rw [CursorState.row, hdone, ← hs.position]
    rfl

/-- **A filtered cursor finds the records that satisfy its test, each once and in
order, and every failure on the way.** The test only reads, the cursor under the
filter is new or used, and no call closes. -/
theorem sifting_of_calls (home : SetAddress) (columns : List Column) (settings : Settings)
    (stream : RecordStream) (fallback : Fallback) (metadata : Option ResultMetadata)
    (cl : Client) (used : List CursorCall) (test : RowTest) (h : test.OnlyReads)
    (calls : List CursorCall) (hused : ∀ k ∈ used, k ≠ .close) (hk : ∀ k ∈ calls, k ≠ .close) :
    let start : RecordCursor := { home, columns, settings, stream, fallback, metadata }
    let inner := (afterAll (start, cl) used).1
    let s : FilteredCursor RecordCursor × Client := ({ inner, test }, (afterAll (start, cl) used).2)
    Sifting (fun r => test.verdict (reading columns settings r) h) inner.ahead
      (reading columns settings) (exchanges s calls) (afterAll s calls) := by
  intro start inner s
  have hstart : RecordCursor.Stands start [] start :=
    ⟨⟨nofun, rfl, rfl, nofun⟩, rfl, rfl, rfl, rfl, rfl, rfl⟩
  have hinner := RecordCursor.stands_of_calls hstart cl used hused
  have haccount : Account test columns settings
      (fun r => test.verdict (reading columns settings r) h) inner.ahead [] s.1 :=
    ⟨⟨rfl, ⟨hinner.columns, hinner.settings, hinner.placed⟩, rfl, nofun⟩, rfl, rfl, rfl, nofun⟩
  exact (account_of_calls h rfl haccount s.2 calls hk).sifting h rfl

/-- Looking for a column keeps the first row for the move to it. The second move
passes over a refused row and meets the failure of the stream, the third comes to
a row that cannot be compared, and the fourth to the other row above the bound. -/
theorem sifting_across_failures :
    let row (v : Value) : Event := .ok ⟨none, .ofList [("n", v)]⟩
    let lost : Error := .storage "lost"
    let stream : RecordStream :=
      { pending := [row (.int64 5), row (.int64 1), .error lost, row (.text "x"),
          row (.int64 7)] }
    let columns : List Column := [{ name := "n", schema := "test", table := "t" }]
    let start : RecordCursor := { home := ⟨"test", "t"⟩, columns, settings := {}, stream }
    let test : RowTest := .all [.negate (.isNull "n"), .compares .integer "n" .greater (.int64 3)]
    let calls : List CursorCall :=
      [.findColumn "n", .next, .next, .next, .getObject "n", .next, .next]
    let s : FilteredCursor RecordCursor × Client := ({ inner := start, test }, { store := .memory {} })
    ∃ h : test.OnlyReads, (∀ k ∈ calls, k ≠ .close) ∧
      Sifting (fun r => test.verdict (reading columns {} r) h) stream.events (reading columns {})
        (exchanges s calls) (afterAll s calls) ∧
      (exchanges s calls).map (·.moved?) =
        [none, some true, none, none, none, some true, some false] := by
  intro row lost stream columns start test calls s
  have h : test.OnlyReads := RowTest.onlyReads_all <| List.forall_mem_cons.mpr
    ⟨(RowTest.onlyReads_isNull "n").negate, List.forall_mem_singleton.mpr
      (RowTest.onlyReads_compares .integer "n" .greater (.int64 3))⟩
  have hk : ∀ k ∈ calls, k ≠ .close := by simp [calls]
  exact ⟨h, hk, sifting_of_calls ⟨"test", "t"⟩ columns {} stream .nowhere none
    { store := .memory {} } [] test h calls (by simp) hk, by decide +kernel⟩

end FilteredCursor
end KeyedRows
