/-
# Whether the last value read was a null

A cursor remembers of the values that getters read whether the last one was a null,
before the value is converted to what the getter gives. Of all calls only the getters
that read touch this (`wasNull_after`), so after any calls it is told by the last of
these (`wasNull_afterAll`), whatever the tests of filters have read from the cursors
under them, or done to them. No named getter fails on a null: the plain ones give a zero, the others
nothing.

Key definitions: `lastRead`, `PlainGetter`, `OptionalGetter`, `NamedGetter`.
Key theorem: **`Cursor.wasNull_tells_last_read`**.
-/
import KeyedRows.Cursor.Comparison
import KeyedRows.Proofs.Cursor.States
import KeyedRows.Typed.Bytes
import KeyedRows.Typed.Moment

namespace KeyedRows

open CursorM CursorCall

/-! ### Named getters -/

/-- The getters that give a zero for a null. -/
inductive PlainGetter where
  | bool
  | int8
  | int16
  | int32
  | int64
  | float32
  | float64
deriving DecidableEq

/-- The getters that give nothing for a null. -/
inductive OptionalGetter where
  | string
  | bytes
  | blob
  | binaryStream
  | date
  | time
  | timestamp
  | array
deriving DecidableEq

def PlainGetter.Result : PlainGetter → Type
  | bool => Bool
  | int8 => Int8
  | int16 => Int16
  | int32 => Int32
  | int64 => Int64
  | float32 => Float32
  | float64 => Float

def OptionalGetter.Result : OptionalGetter → Type
  | string => String
  | bytes => List UInt8
  | blob => Blob
  | binaryStream => ByteStream
  | date => Calendar.Date
  | time => Calendar.TimeOfDay
  | timestamp => Calendar.Moment
  | array => SqlArray

instance : (g : PlainGetter) → Readable g.Result
  | .bool => inferInstanceAs (Readable Bool)
  | .int8 => inferInstanceAs (Readable Int8)
  | .int16 => inferInstanceAs (Readable Int16)
  | .int32 => inferInstanceAs (Readable Int32)
  | .int64 => inferInstanceAs (Readable Int64)
  | .float32 => inferInstanceAs (Readable Float32)
  | .float64 => inferInstanceAs (Readable Float)

instance : (g : OptionalGetter) → Readable g.Result
  | .string => inferInstanceAs (Readable String)
  | .bytes => inferInstanceAs (Readable (List UInt8))
  | .blob => inferInstanceAs (Readable Blob)
  | .binaryStream => inferInstanceAs (Readable ByteStream)
  | .date => inferInstanceAs (Readable Calendar.Date)
  | .time => inferInstanceAs (Readable Calendar.TimeOfDay)
  | .timestamp => inferInstanceAs (Readable Calendar.Moment)
  | .array => inferInstanceAs (Readable SqlArray)

def PlainGetter.call (g : PlainGetter) (label : String) : CursorCall := .get g.Result label

def OptionalGetter.call (g : OptionalGetter) (label : String) : CursorCall :=
  .get (Option g.Result) label

/-- The getters that have a name of their own. -/
inductive NamedGetter where
  | plain (g : PlainGetter)
  | optional (g : OptionalGetter)
deriving DecidableEq

def NamedGetter.call (label : String) : NamedGetter → CursorCall
  | plain g => g.call label
  | optional g => g.call label

theorem Value.isNull_iff {v : Value} : v.isNull = true ↔ v = .null := by
  cases v <;> simp [Value.isNull]

/-- Nothing is given for a null, and only for it. -/
theorem read_option_eq_none_iff {α : Type} [Readable α] {v : Value} :
    (Readable.read v : Except Error (Option α)) = .ok none ↔ v.isNull = true := by
  by_cases hv : v = .null
  · subst hv
    exact iff_of_true rfl rfl
  · have hread : (Readable.read v : Except Error (Option α)) = (Readable.read v).map some := by
      cases v with
      | null => exact absurd rfl hv
      | _ => rfl
    rw [hread, Value.isNull_iff]
    refine iff_of_false ?_ hv
    cases (Readable.read v : Except Error α) <;> simp [Except.map]

theorem PlainGetter.read_null (g : PlainGetter) :
    ∃ a, (Readable.read .null : Except Error g.Result) = .ok a := by
  cases g <;> exact ⟨_, rfl⟩

/-! ### The flag -/

section

variable {γ : Type} [RowCursor γ]

/-- The value that was read last. -/
def lastRead (xs : List (Exchange γ)) : Option Value := (xs.filterMap (·.read?)).getLast?

theorem lastRead_append (xs : List (Exchange γ)) (x : Exchange γ) :
    lastRead (xs ++ [x]) = x.read?.or (lastRead xs) := by
  unfold lastRead
  rw [List.filterMap_append]
  cases hx : x.read? with
  | none => simp [hx]
  | some v => simp [hx]

/-- What is read by a getter is what the untyped getter of the label answers. -/
theorem Exchange.read?_get {α : Type} [Readable α] {label : String} {s : γ × Client} {v : Value} :
    (Exchange.mk s (.get α label)).read? = some v ↔
      (CursorCall.getObject label).answer s = .ok v := by
  have hread : (Exchange.mk s (.get α label)).read? =
      ((CursorCall.getObject label).answer s).toOption := rfl
  rw [hread]
  cases (CursorCall.getObject label).answer s <;> simp [Except.toOption]

/-- A getter that reads answers with what it makes of the value. -/
theorem RowCursor.get_answer_of_read {α : Type} [Readable α] {label : String} {s : γ × Client}
    {v : Value} (h : (Exchange.mk s (.get α label)).read? = some v) :
    (CursorCall.get α label).answer s = Readable.read v := by
  rw [get_answer, Exchange.read?_get.mp h]
  rfl

/-- A getter that answers has read. -/
theorem RowCursor.read?_of_get_answer {α : Type} [Readable α] {label : String} {s : γ × Client}
    {a : α} (h : (CursorCall.get α label).answer s = .ok a) :
    ∃ v, (Exchange.mk s (.get α label)).read? = some v := by
  rw [get_answer] at h
  cases hv : (CursorCall.getObject label).answer s with
  | error e =>
    rw [hv] at h
    cases h
  | ok v => exact ⟨v, Exchange.read?_get.mpr hv⟩

/-- A named getter that answers has read. -/
theorem NamedGetter.read?_of_answer {g : NamedGetter} {label : String} {s : γ × Client}
    (h : ∃ a, (g.call label).answer s = .ok a) :
    ∃ v, (Exchange.mk s (g.call label)).read? = some v := by
  obtain ⟨a, ha⟩ := h
  cases g with
  | plain g => exact RowCursor.read?_of_get_answer (α := g.Result) ha
  | optional g => exact RowCursor.read?_of_get_answer (α := Option g.Result) ha

/-- One that may give nothing does so exactly for a null. -/
theorem OptionalGetter.answer_none_iff {g : OptionalGetter} {label : String} {s : γ × Client}
    {v : Value} (h : (Exchange.mk s (g.call label)).read? = some v) :
    (g.call label).answer s = .ok none ↔ v.isNull = true := by
  have hanswer := RowCursor.get_answer_of_read (α := Option g.Result) h
  rw [← read_option_eq_none_iff (α := g.Result), ← hanswer]
  rfl

/-- **No named getter fails on a null.** -/
theorem NamedGetter.answer_of_null {g : NamedGetter} {label : String} {s : γ × Client}
    (h : (Exchange.mk s (g.call label)).read? = some .null) :
    ∃ a, (g.call label).answer s = .ok a := by
  cases g with
  | plain g =>
    obtain ⟨a, ha⟩ := g.read_null
    exact ⟨a, (RowCursor.get_answer_of_read (α := g.Result) h).trans ha⟩
  | optional g => exact ⟨none, (OptionalGetter.answer_none_iff h).mpr rfl⟩

theorem CursorState.wasNull_moved (s : CursorState) (b : Option Bool) :
    (s.moved b).wasNull = s.wasNull := by
  rcases b with _ | (_ | _) <;> rfl

theorem CursorState.wasNull_noted (s : CursorState) (v : Option Value) :
    (s.noted v).wasNull = (v.map Value.isNull).getD s.wasNull := by
  cases v <;> rfl

theorem CursorState.wasNull_directed (s : CursorState) (d : FetchDirection) :
    (s.directed d).wasNull = s.wasNull := by
  unfold directed
  split_ifs <;> rfl

/-- Of what a call makes of the state, only what a getter reads concerns nulls. -/
theorem Exchange.wasNull_effect (x : Exchange γ) (st : CursorState) :
    (x.effect st).wasNull = (x.read?.map Value.isNull).getD st.wasNull := by
  obtain ⟨s, k⟩ := x
  cases k with
  | next => exact st.wasNull_moved _
  | first => exact st.wasNull_moved _
  | getObject label => exact st.wasNull_noted _
  | get α label => exact st.wasNull_noted _
  | setFetchDirection d => exact st.wasNull_directed d
  | _ => rfl

variable [TrackedCursor γ]

/-- **Only a getter that reads touches the flag.** -/
theorem TrackedCursor.wasNull_after (x : Exchange γ) :
    (RowCursor.state x.after.1).wasNull =
      (x.read?.map Value.isNull).getD (RowCursor.state x.before.1).wasNull := by
  rw [state_after, x.wasNull_effect]

/-- **After any calls the last value read tells the flag**, and where none was read it
is what it was. -/
theorem TrackedCursor.wasNull_afterAll (s : γ × Client) (calls : List CursorCall) :
    (RowCursor.state (afterAll s calls).1).wasNull =
      ((lastRead (exchanges s calls)).map Value.isNull).getD (RowCursor.state s.1).wasNull := by
  induction calls using List.reverseRecOn with
  | nil => rfl
  | append_singleton ks k ih =>
    have hstep := wasNull_after ⟨afterAll s ks, k⟩
    rw [exchanges_append, lastRead_append, afterAll_append]
    refine hstep.trans ?_
    cases (Exchange.mk (afterAll s ks) k).read? with
    | some v => rfl
    | none => exact ih

end

/-! ### Cursors of any kind -/

/-- **Whether the last value read was a null.** Of a cursor of any kind, under any number
of filters, that has read nothing yet: whatever was called on it, it tells so of the last
value that a getter of its own has read, and no if none has. A call leaves this as it is
if it is no getter, or stands on no row, or its label means nothing. A named getter that answers has read;
it does not fail on a null, and if it fails on what it has read, the flag is down. One
that may give nothing does so exactly if the flag is up then. -/
theorem Cursor.wasNull_tells_last_read (c : Cursor) (hnew : (RowCursor.state c).wasNull = false)
    (cl : Client) (calls : List CursorCall) :
    let s := afterAll (c, cl) calls
    let nullAfter (k : CursorCall) : Bool := (RowCursor.state (k.after s).1).wasNull
    ((RowCursor.state s.1).wasNull = true ↔ lastRead (exchanges (c, cl) calls) = some .null) ∧
    (∀ k : CursorCall, (∀ label v, k.getter? = some label →
        (RowCursor.state s.1).ensureRow = .ok () → (CursorCall.readValue label).answer s ≠ .ok v) →
      nullAfter k = (RowCursor.state s.1).wasNull) ∧
    (∀ (g : NamedGetter) (label : String),
      ((∃ a, (g.call label).answer s = .ok a) → ∃ v, (Exchange.mk s (g.call label)).read? = some v) ∧
      ((Exchange.mk s (g.call label)).read? = some .null → ∃ a, (g.call label).answer s = .ok a) ∧
      ∀ v e, (Exchange.mk s (g.call label)).read? = some v →
        (g.call label).answer s = .error e → nullAfter (g.call label) = false) ∧
    ∀ (g : OptionalGetter) (label : String) (v : Value),
      (Exchange.mk s (g.call label)).read? = some v →
        ((g.call label).answer s = .ok none ↔ nullAfter (g.call label) = true) := by
  intro s nullAfter
  have hafter : ∀ k : CursorCall, nullAfter k =
      ((Exchange.mk s k).read?.map Value.isNull).getD (RowCursor.state s.1).wasNull :=
    fun k => TrackedCursor.wasNull_after ⟨s, k⟩
  have hread : ∀ k v, (Exchange.mk s k).read? = some v → nullAfter k = v.isNull := by
    intro k v hv
    rw [hafter, hv]
    rfl
  refine ⟨?_, fun k hk => ?_, fun g label => ⟨NamedGetter.read?_of_answer,
    NamedGetter.answer_of_null, fun v e hv he => ?_⟩, fun g label v hv => ?_⟩
  · rw [TrackedCursor.wasNull_afterAll, hnew]
    cases lastRead (exchanges (c, cl) calls) with
    | none => simp
    | some v => simp [Value.isNull_iff]
  · have hnone : (Exchange.mk s k).read? = none := by
      rw [Option.eq_none_iff_forall_ne_some]
      intro v hv
      obtain ⟨label, hlabel, hrow, hvalue⟩ := Exchange.read?_eq_some.mp hv
      exact hk label v hlabel hrow hvalue
    rw [hafter, hnone]
    rfl
  · rw [hread _ v hv, Bool.eq_false_iff]
    intro hnull
    rw [Value.isNull_iff.mp hnull] at hv
    obtain ⟨a, ha⟩ := NamedGetter.answer_of_null hv
    cases he.symm.trans ha
  · rw [hread _ v hv]
    exact OptionalGetter.answer_none_iff hv

/-- The test of the filter reads a null from each row and the cursor has read none yet. A
text that is no number is read, and then a null, of which later calls leave word. -/
theorem null_told_over_filtered_rows :
    let columns : List Column :=
      [{ name := "n", type := .varchar, schema := "test", table := "t" },
       { name := "m", type := .varchar, schema := "test", table := "t" }]
    let rows : List Bins := [.ofList [("n", .text "one")], {}]
    let c := (Cursor.ofStatic (.ofRows (.ofColumns columns) rows)).filtered (.isNull "m")
    let cl : Client := { store := .memory {} }
    let calls : List CursorCall := [.next, .get Int64 "n", .get (Option String) "m", .next, .isLast]
    (RowCursor.state c).wasNull = false ∧
      (RowCursor.state (afterAll (c, cl) [.next]).1).wasNull = false ∧
      (NamedGetter.call "n" (.plain .int64)).answer (afterAll (c, cl) [.next]) =
        .error (.wrongText "Int64" "one") ∧
      (RowCursor.state ((NamedGetter.call "n" (.plain .int64)).after
        (afterAll (c, cl) [.next])).1).wasNull = false ∧
      lastRead (exchanges (c, cl) calls) = some .null ∧
      (RowCursor.state (afterAll (c, cl) calls).1).wasNull = true := by
  intro columns rows c cl calls
  have hnew : (RowCursor.state c).wasNull = false := rfl
  have hlast : lastRead (exchanges (c, cl) calls) = some .null := by decide +kernel
  have herror : (NamedGetter.call "n" (.plain .int64)).answer (afterAll (c, cl) [.next]) =
      .error (.wrongText "Int64" "one") := by rfl
  obtain ⟨-, -, hgetters, -⟩ := Cursor.wasNull_tells_last_read c hnew cl [.next]
  obtain ⟨hflag, -⟩ := Cursor.wasNull_tells_last_read c hnew cl calls
  exact ⟨hnew, rfl, herror, (hgetters (.plain .int64) "n").2.2 (.text "one") _ rfl herror, hlast,
    hflag.mpr hlast⟩

end KeyedRows
