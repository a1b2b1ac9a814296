/-
# What a failing insert leaves

An insert makes its calls in one order: in strict mode the question for the keys
of all rows, then a write for each row. Any of them may fail, and then it is the
last. So there is a number of rows that were written, the first ones, and the
store is what it was with these merged into it; the log of the client shows these
calls and, at its end, the one that failed (`Insert.Course`). A row without a key lets
the insert fail before its first call.

What is known of one call (`Client.call_of_answer`) is put together for the calls
of a run in `Made`, which grows at its front along the recursion of `writeRows`.

Key definitions: `Client.Made`, `Client.Failed`, `Insert.WriteOf`, `Fresh`,
`Insert.Course`. Key theorem: **`failing_insert_keeps_first_rows`**.
-/
import KeyedRows.Proofs.Cursor.Calls
import KeyedRows.Proofs.Statement.Insert
import KeyedRows.Proofs.Store.History

namespace KeyedRows

/-! ### Calls that are answered, and one that fails -/

namespace Client

/-- The client answered these calls, one after the other. -/
structure Made (c : Client) (calls : List Call) (after : Client) : Prop where
  answered : callAll calls c = .ok () after
  log : after.log = c.log ++ calls.map fun k => LoggedCall.mk k true
  store : after.store = calls.foldl Store.after c.store

/-- The client failed this call, which did not reach the store. -/
structure Failed (c : Client) (k : Call) (e : Error) (after : Client) : Prop where
  failed : call k c = .error e after
  log : after.log = c.log ++ [LoggedCall.mk k false]
  store : after.store = c.store

variable {c mid after : Client} {k : Call}

/-- A call that the store has an answer to is given it, unless the client fails. -/
theorem call_of_answer {r : k.Result} (h : c.store.answer k = .ok r) :
    (∃ after, call k c = .ok r after ∧ c.Made [k] after) ∨ ∃ e after, c.Failed k e after := by
  rcases hstrike : strike k.kind c.faults with ⟨_ | message, faults⟩
  · have hcall : call k c = .ok r
        ({ c with faults, store := c.store.after k }.record k true) := by
      simp only [call, hstrike, h]
    refine .inl ⟨_, hcall, ?_, rfl, rfl⟩
    simp only [callAll, bind, EStateM.bind, hcall]
    rfl
  · refine .inr ⟨.storage message, { c with faults }.record k false, ?_, rfl, rfl⟩
    simp only [call, hstrike]

theorem Made.nil (c : Client) : c.Made [] c where
  answered := rfl
  log := (List.append_nil c.log).symm
  store := rfl

/-- Calls that were answered after others that were. -/
theorem Made.append {ks ls : List Call} (h : c.Made ks mid) (hl : mid.Made ls after) :
    c.Made (ks ++ ls) after where
  answered := by
    have hsplit : ∀ (ks : List Call) (c : Client), callAll ks c = .ok () mid →
        callAll (ks ++ ls) c = .ok () after := by
      intro ks
      induction ks with
      | nil =>
        intro c hc
        cases hc
        exact hl.answered
      | cons k ks ih =>
        intro c hc
        simp only [List.cons_append, callAll, bind, EStateM.bind] at hc ⊢
        cases hcall : call k c with
        | error e d =>
          rw [hcall] at hc
          cases hc
        | ok r d =>
          rw [hcall] at hc
          exact ih d hc
    exact hsplit ks c h.answered
  log := by rw [hl.log, h.log, List.map_append, List.append_assoc]
  store := by rw [hl.store, h.store, List.foldl_append]

end Client

/-! ### Writing rows -/

/-- The write of a row. -/
def RowWrite.call (w : RowWrite) : Call := .put w.key w.bins

/-- The store with rows merged into it, one after the other. -/
def Store.putAll (s : Store) (ws : List RowWrite) : Store :=
  ws.foldl (fun s w => s.put w.key w.bins) s

theorem Store.foldl_after_calls (s : Store) (ws : List RowWrite) :
    (ws.map RowWrite.call).foldl Store.after s = s.putAll ws := by
  rw [List.foldl_map]
  rfl

/-- **Rows are written in order up to the first write that fails.** -/
theorem writeRows_cases : ∀ (ws : List RowWrite) (written : ℕ) (c : Client),
    (∃ after, writeRows written ws c = .ok (written + ws.length) after ∧
      c.Made (ws.map RowWrite.call) after) ∨
    ∃ n w mid e after, ws[n]? = some w ∧ c.Made ((ws.take n).map RowWrite.call) mid ∧
      mid.Failed w.call e after ∧ writeRows written ws c = .error e after
  | [], written, c => .inl ⟨c, rfl, .nil c⟩
  | w :: ws, written, c => by
    have hanswer : c.store.answer w.call = .ok () := rfl
    rcases Client.call_of_answer hanswer with ⟨next, hcall, hmade⟩ | ⟨e, after, hfailed⟩
    · have hput : Client.put w.key w.bins c = .ok () next := hcall
      have hwrite : writeRows written (w :: ws) c = writeRows (written + 1) ws next := by
        simp only [writeRows, bind, EStateM.bind, hput]
      rcases writeRows_cases ws (written + 1) next with
        ⟨after, hrun, hrest⟩ | ⟨n, v, mid, e, after, hv, hrest, hfailed, hrun⟩
      · refine .inl ⟨after, ?_, hmade.append hrest⟩
        rw [hwrite, hrun, List.length_cons]
        congr 1
        omega
      · exact .inr ⟨n + 1, v, mid, e, after, hv, hmade.append hrest, hfailed, hwrite.trans hrun⟩
    · have hput : Client.put w.key w.bins c = .error e after := hfailed.failed
      refine .inr ⟨0, w, c, e, after, rfl, .nil c, hfailed, ?_⟩
      simp only [writeRows, bind, EStateM.bind, hput]

/-! ### What is written for a row -/

namespace Insert

/-- The row has a value for every column, and a key. -/
structure Accepts (i : Insert) (row : List Value) : Prop where
  length : row.length = i.columns.length
  literal : (keyAt i.keyIndex row).isSome

instance (i : Insert) (row : List Value) : Decidable (i.Accepts row) :=
  decidable_of_iff (row.length = i.columns.length ∧ (keyAt i.keyIndex row).isSome)
    ⟨fun h => ⟨h.1, h.2⟩, fun h => ⟨h.length, h.literal⟩⟩

/-- What a row becomes: its key in the set, and under each name its value in the
last column of that name. -/
structure WriteOf (i : Insert) (row : List Value) (w : RowWrite) : Prop where
  home : w.key.home = i.home
  user : keyAt i.keyIndex row = some w.key.user
  bins : ∀ name v, w.bins.find? name = some v ↔ IsValue i.columns i.keyIndex row name v

variable {i : Insert} {row : List Value}

theorem WrittenFor.writeOf {w : RowWrite} (h : i.WrittenFor row w) : i.WriteOf row w := by
  obtain ⟨hkey, hbins⟩ := h
  obtain ⟨hlength, hhome, huser⟩ := (keyOf_eq_ok row w.key).mp hkey
  refine ⟨hhome, huser, fun name v => ?_⟩
  rw [hbins, binsOf, OrderedMap.find?_ofList, lastUnder_row i.keyIndex hlength]

/-- A row has a key exactly if it is accepted. -/
theorem accepts_iff : i.Accepts row ↔ ∃ key, i.keyOf row = .ok key := by
  constructor
  · rintro ⟨hlength, hliteral⟩
    obtain ⟨user, huser⟩ := Option.isSome_iff_exists.mp hliteral
    exact ⟨⟨i.home, user⟩, (keyOf_eq_ok row _).mpr ⟨hlength, rfl, huser⟩⟩
  · rintro ⟨key, hkey⟩
    obtain ⟨hlength, -, huser⟩ := (keyOf_eq_ok row key).mp hkey
    exact ⟨hlength, by simp [huser]⟩

/-- What an insert asks before it writes. -/
def question (i : Insert) (ws : List RowWrite) : List Call :=
  match i.mode with
  | .strict => [.getBatch (ws.map (·.key))]
  | .ignore => []

end Insert

/-! ### The course of an insert -/

/-- No two rows have one key, and no key exists. -/
structure Fresh (s : Store) (ws : List RowWrite) : Prop where
  distinct : (ws.map (·.key)).Nodup
  absent : ∀ w ∈ ws, s.find? w.key = none

/-- How an insert of these rows ends, and after how many written rows. Each of the
calls before the end was answered. -/
inductive Insert.Course (i : Insert) (ws : List RowWrite) (c : Client) :
    ℕ → EStateM.Result Error Client ℕ → Prop where
  /-- The question for the keys fails. -/
  | unanswered {e : Error} {after : Client} (strict : i.mode = .strict)
      (failed : c.Failed (.getBatch (ws.map (·.key))) e after) : i.Course ws c 0 (.error e after)
  /-- A key exists or stands twice. -/
  | refused {keys : String} {after : Client} (strict : i.mode = .strict)
      (asked : c.Made [.getBatch (ws.map (·.key))] after) (taken : ¬ Fresh c.store ws) :
      i.Course ws c 0 (.error (.duplicateKey keys) after)
  /-- The write of the row after the first `n` fails. -/
  | stopped {n : ℕ} {w : RowWrite} {mid after : Client} {e : Error}
      (fresh : i.mode = .strict → Fresh c.store ws) (next : ws[n]? = some w)
      (made : c.Made (i.question ws ++ (ws.take n).map RowWrite.call) mid)
      (failed : mid.Failed w.call e after) : i.Course ws c n (.error e after)
  /-- All rows are written. -/
  | written {after : Client} (fresh : i.mode = .strict → Fresh c.store ws)
      (made : c.Made (i.question ws ++ ws.map RowWrite.call) after) :
      i.Course ws c ws.length (.ok ws.length after)

namespace Insert.Course

variable {i : Insert} {ws : List RowWrite} {c : Client}

/-- A course of writes, once the question is answered. -/
theorem of_writeRows {asked : Client} (fresh : i.mode = .strict → Fresh c.store ws)
    (hasked : c.Made (i.question ws) asked) : ∃ n, i.Course ws c n (writeRows 0 ws asked) := by
  rcases writeRows_cases ws 0 asked with
    ⟨after, hrun, hmade⟩ | ⟨n, w, mid, e, after, hw, hmade, hfailed, hrun⟩
  · rw [hrun, Nat.zero_add]
    exact ⟨_, .written fresh (hasked.append hmade)⟩
  · rw [hrun]
    exact ⟨n, .stopped fresh hw (hasked.append hmade) hfailed⟩

theorem store_question (i : Insert) (ws vs : List RowWrite) (s : Store) :
    (i.question ws ++ vs.map RowWrite.call).foldl Store.after s = s.putAll vs := by
  rw [List.foldl_append, Store.foldl_after_calls]
  unfold Insert.question
  cases i.mode <;> rfl

/-- The store is what it was with the first rows merged into it. -/
theorem store_eq {n : ℕ} {op : ClientM ℕ} (h : i.Course ws c n (op c)) :
    (leaves op c).store = c.store.putAll (ws.take n) := by
  unfold leaves
  generalize op c = result at h
  cases h with
  | unanswered _ hfailed => exact hfailed.store
  | refused _ hasked _ => exact hasked.store
  | stopped _ _ hmade hfailed => rw [hfailed.store, hmade.store, store_question]
  | written _ hmade => rw [hmade.store, store_question, List.take_length]

end Insert.Course

namespace Insert

variable {i : Insert}

/-- The check of keys that were asked for. -/
theorem fresh_iff_check {s : Store} {ws : List RowWrite} (hfree : DigestsDiffer (ws.map (·.key))) :
    checkFound ws ((ws.map (·.key)).map s.find?) = .ok () ↔ Fresh s ws := by
  rw [checkFound_eq_ok_iff]
  constructor
  · rintro ⟨hdigests, habsent⟩
    exact ⟨List.Nodup.of_map _ hdigests, fun w hw => habsent _ (List.mem_map.mpr ⟨w, hw, rfl⟩)⟩
  · rintro ⟨hdistinct, habsent⟩
    refine ⟨List.Nodup.map_on hfree hdistinct, fun key hkey => ?_⟩
    obtain ⟨w, hw, rfl⟩ := List.mem_map.mp hkey
    exact habsent w hw

theorem exists_keys_of_check {ws : List RowWrite} {found : List (Option Bins)} {e : Error}
    (h : checkFound ws found = .error e) : ∃ keys, e = .duplicateKey keys := by
  simp only [checkFound] at h
  split at h
  · cases h
  · exact ⟨_, (Except.error.inj h).symm⟩

/-- A strict insert asks for its keys and writes its rows if all are fresh. -/
theorem course_checking {ws : List RowWrite} (hmode : i.mode = .strict)
    (hfree : DigestsDiffer (ws.map (·.key))) (c : Client) :
    ∃ n, i.Course ws c n ((Insertion.checking ws).run c) := by
  have hquestion : i.question ws = [.getBatch (ws.map (·.key))] := by
    simp only [question, hmode]
  have hanswer : c.store.answer (.getBatch (ws.map (·.key))) =
      .ok ((ws.map (·.key)).map c.store.find?) := rfl
  rcases Client.call_of_answer hanswer with ⟨asked, hcall, hmade⟩ | ⟨e, after, hfailed⟩
  · have hget : Client.getBatch (ws.map (·.key)) c =
        .ok ((ws.map (·.key)).map c.store.find?) asked := hcall
    rw [run_checking_of_found hget]
    cases hcheck : checkFound ws ((ws.map (·.key)).map c.store.find?) with
    | ok u =>
      have hfresh : Fresh c.store ws := (fresh_iff_check hfree).mp hcheck
      exact Course.of_writeRows (fun _ => hfresh) (hquestion ▸ hmade)
    | error e =>
      obtain ⟨keys, rfl⟩ := exists_keys_of_check hcheck
      refine ⟨0, .refused hmode hmade fun hfresh => ?_⟩
      rw [(fresh_iff_check hfree).mpr hfresh] at hcheck
      cases hcheck
  · have hrun : (Insertion.checking ws).run c = .error e after := by
      simp only [Insertion.run, Client.getBatch, bind, EStateM.bind, hfailed.failed]
    rw [hrun]
    exact ⟨0, .unanswered hmode hfailed⟩

/-- An insert of rows that can be written runs its course. -/
theorem course_of_writes {ws : List RowWrite} (hws : i.writes = .ok ws)
    (hfree : DigestsDiffer (ws.map (·.key))) (c : Client) :
    ∃ n, i.Course ws c n (i.run c) := by
  cases hmode : i.mode with
  | strict =>
    have hrun : i.run c = (Insertion.checking ws).run c := by
      simp only [run, start, hws, hmode]
      rfl
    rw [hrun]
    exact course_checking hmode hfree c
  | ignore =>
    have hrun : i.run c = writeRows 0 ws c := by
      simp only [run, start, hws, hmode]
      rfl
    have hquestion : i.question ws = [] := by
      simp only [question, hmode]
    rw [hrun]
    exact Course.of_writeRows (fun hstrict => by simp [hmode] at hstrict) (hquestion ▸ .nil c)

end Insert

/-- **A failing insert leaves a prefix.** Whatever the store holds and whichever
calls of the client fail: a row without a key lets an insert fail before any call.
Otherwise it asks for its keys, if it is strict, and writes its rows in order up to
the first call that fails, whose error is its own, or up to the last. The store is
then what it was with the rows before that call merged into it. -/
theorem failing_insert_keeps_first_rows (i : Insert) (c : Client)
    (hfree : DigestsDiffer (keysAt i.home i.keyIndex i.rows)) :
    ((∃ row ∈ i.rows, ¬ i.Accepts row) → ∃ e, i.run c = .error e c) ∧
    ((∀ row ∈ i.rows, i.Accepts row) →
      ∃ ws n, List.Forall₂ i.WriteOf i.rows ws ∧ i.Course ws c n (i.run c) ∧
        (leaves i.run c).store = c.store.putAll (ws.take n)) := by
  rcases i.writes_cases with ⟨ws, hws, hall⟩ | ⟨e, he, row, hrow, hno⟩
  · constructor
    · rintro ⟨row, hrow, hnot⟩
      obtain ⟨w, -, hkey, -⟩ := exists_of_forall₂ hall hrow
      exact absurd (Insert.accepts_iff.mpr ⟨w.key, hkey⟩) hnot
    · intro _
      rw [← Insert.keys_of_writes hall] at hfree
      obtain ⟨n, hcourse⟩ := Insert.course_of_writes hws hfree c
      exact ⟨ws, n, hall.imp fun _ _ h => h.writeOf, hcourse, hcourse.store_eq⟩
  · constructor
    · intro _
      refine ⟨e, ?_⟩
      simp only [Insert.run, Insert.start, he]
      rfl
    · intro haccepts
      obtain ⟨key, hkey⟩ := Insert.accepts_iff.mp (haccepts row hrow)
      exact absurd hkey (hno key)

/-- The second of three writes fails: the first row is in the store, and the log
ends with the second. -/
theorem second_write_fails :
    let i : Insert :=
      { home := ⟨"test", "t"⟩, columns := ["n", "PK"], keyIndex := 1, keyColumn := "PK",
        rows := [[.int8 1, .int32 7], [.int8 2, .text "a"], [.int8 3, .bytes [0]]] }
    let c : Client :=
      { store := .memory {}, faults := [{ kind := .put, passes := 1, message := "down" }] }
    let first : RowWrite := ⟨⟨i.home, .int 7⟩, .ofList [("n", .int8 1)]⟩
    let second : RowWrite := ⟨⟨i.home, .text "a"⟩, .ofList [("n", .int8 2)]⟩
    DigestsDiffer (keysAt i.home i.keyIndex i.rows) ∧ (∀ row ∈ i.rows, i.Accepts row) ∧
      (leaves i.run c).store = c.store.putAll [first] ∧
      (leaves i.run c).log = [⟨.getBatch [first.key, second.key, ⟨i.home, .bytes [0]⟩], true⟩,
        ⟨first.call, true⟩, ⟨second.call, false⟩] ∧
      ∃ ws n, List.Forall₂ i.WriteOf i.rows ws ∧ i.Course ws c n (i.run c) ∧
        (leaves i.run c).store = c.store.putAll (ws.take n) := by
  intro i c first second
  have hfree : DigestsDiffer (keysAt i.home i.keyIndex i.rows) := by decide +kernel
  have haccepts : ∀ row ∈ i.rows, i.Accepts row := by decide +kernel
  have hstore : (leaves i.run c).store = c.store.putAll [first] := by decide +kernel
  have hlog : (leaves i.run c).log =
      [⟨.getBatch [first.key, second.key, ⟨i.home, .bytes [0]⟩], true⟩,
        ⟨first.call, true⟩, ⟨second.call, false⟩] := by decide +kernel
  exact ⟨hfree, haccepts, hstore, hlog, (failing_insert_keeps_first_rows i c hfree).2 haccepts⟩

end KeyedRows
