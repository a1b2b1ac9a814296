/-
# What the cursor of a statement visits

A statement opens one stream, and its cursor visits the records that this
stream delivers (`openCursor_yields`). Types may be discovered before: this
scans tables and closes the scans again, which a store in memory always
answers and which changes nothing in it (`Serves.discover`). So it is known
which cursor is given (`openCursor_eq`).

Key definitions: `MemoryStore.discovered`, `Delivers`, `Yields`,
`MemoryStore.cursorOn`.
Key theorem: **`openCursor_yields`**.
-/
import KeyedRows.Proofs.Cursor.Visits
import KeyedRows.Proofs.Schema.Fetched
import KeyedRows.Proofs.Store.Client
import KeyedRows.Statement.Source

namespace KeyedRows

/-! ### Discovery -/

namespace Discovery

theorem takeSample_records (limit : ℕ) (rs : List Record) :
    (takeSample limit (rs.map .ok)).1 = .ok ((rs.take limit).map (·.bins)) := by
  rw [takeSample_eq, ← List.map_take, findSome?_records, filterMap_records]

/-- Sampling that always succeeds samples all tables, and keeps what each sample
keeps. -/
theorem mapM_sample_keeps {σ : Type} {sample : SetAddress → EStateM Error σ (List Bins)}
    {g : SetAddress → List Bins} {I : σ → Prop}
    (hsample : ∀ table s, I s → ∃ after, sample table s = .ok (g table) after ∧ I after) :
    ∀ (tables : List SetAddress) (s : σ), I s →
      ∃ after, (tables.mapM fun t => (t, ·) <$> sample t) s =
        .ok (tables.map fun t => (t, g t)) after ∧ I after
  | [], s, hs => ⟨s, rfl, hs⟩
  | t :: tables, s, hs => by
    obtain ⟨next, hrun, hnext⟩ := hsample t s hs
    obtain ⟨after, hrest, hafter⟩ := mapM_sample_keeps hsample tables next hnext
    simp only [Functor.map] at hrest
    refine ⟨after, ?_, hafter⟩
    simp only [List.mapM_cons, bind, EStateM.bind, Functor.map, EStateM.map, hrun, hrest]
    rfl

end Discovery

/-- The columns, resolved against the first records of each set. -/
def MemoryStore.discovered (m : MemoryStore) (limit : ℕ) (columns : List Column) : List Column :=
  Discovery.resolve columns
    (fun c => ((m.recordsOf (Discovery.tableOf c)).take limit).map (·.bins)) []

namespace Client

variable {c : Client} {m : MemoryStore}

theorem Serves.closing (h : c.Serves m) (s : RecordStream) : (c.noteClosing s).Serves m := by
  unfold noteClosing
  split_ifs
  · exact ⟨h.store, h.faultless⟩
  · exact h

/-- **A sample of a stored set** is the bins of its first records. -/
theorem Serves.sample (h : c.Serves m) (limit : ℕ) (table : SetAddress) :
    ∃ after, Client.sample limit table c =
      .ok (((m.recordsOf table).take limit).map (·.bins)) after ∧ after.Serves m := by
  have hscan := h.scan_eq table
  have htaken := Discovery.takeSample_records limit (m.recordsOf table)
  refine ⟨_, ?_, (h.served (.scan table)).closing (deliver (m.recordsOf table))⟩
  simp only [Client.sample, bind, EStateM.bind, hscan, closeStream, deliver,
    RecordStream.ofRecords, htaken]
  rfl

/-- **Discovery succeeds and changes nothing that is stored.** -/
theorem Serves.discover (h : c.Serves m) (settings : Settings) (columns : List Column) :
    ∃ after, Client.discover settings columns c =
      .ok (m.discovered settings.sampleLimit.toNat columns) after ∧ after.Serves m := by
  obtain ⟨after, hrun, hafter⟩ :=
    Discovery.mapM_sample_keeps (I := fun c : Client => c.Serves m)
      (fun table c hc => hc.sample settings.sampleLimit.toNat table)
      (Discovery.sampledTables columns) c h
  exact ⟨after, Discovery.discover_of_sampled hrun, hafter⟩

end Client

/-! ### The cursor -/

/-- Over this store the source makes one call, which leaves the store as it is,
and gives a stream of these records. -/
def Delivers (source : ClientM RecordStream) (m : MemoryStore) (rs : List Record) : Prop :=
  ∀ c : Client, c.Serves m → ∃ stream k, source c = .ok stream (c.served k) ∧
    (c.served k).Serves m ∧ stream.events = rs.map .ok

/-- The statement gives a cursor that visits these records, showing these values
of each, and leaves this client. -/
def Yields (statement : ClientM Cursor) (values : Record → String → Except Error Value)
    (cl : Client) (rs : List Record) (after : Client) : Prop :=
  ∃ cursor last, statement cl = .ok cursor after ∧
    Visits (Cursor.Shows values) (cursor, after) rs (last, after)

theorem RecordCursor.wellPlaced_of_new {c : RecordCursor} (hstate : c.state = {})
    (hcurrent : c.current = none) (hexhausted : c.exhausted = false) : c.WellPlaced where
  exhausted hx := by cases hexhausted.symm.trans hx
  isOpen := by rw [hstate]
  onRow := by rw [hstate, hcurrent]; rfl
  done hd := by rw [hstate] at hd; cases hd

/-- A new cursor on a stream of records visits them. -/
theorem visits_of_stream {c : RecordCursor} (hstate : c.state = {}) (hcurrent : c.current = none)
    (hreplay : c.replay = none) (hexhausted : c.exhausted = false) {rs : List Record}
    (hevents : c.stream.events = rs.map .ok) (cl : Client) :
    ∃ last, Visits (Cursor.Shows (RecordCursor.reading c.columns c.settings))
      (Cursor.ofRecord c, cl) rs (last, cl) := by
  have hplaced := RecordCursor.wellPlaced_of_new hstate hcurrent hexhausted
  have hahead : c.ahead = rs.map .ok := by simp [RecordCursor.ahead, hreplay, hevents]
  obtain ⟨d, hvisits⟩ := RecordCursor.visits_ahead rs c cl hplaced hahead
  exact ⟨_, Cursor.visits_ofRecord hvisits⟩

/-- The cursor that a statement over this store gives on a stream: types were
discovered for it, or it may ask for any record of its set. -/
def MemoryStore.cursorOn (m : MemoryStore) (settings : Settings) (discovers : Bool)
    (home : SetAddress) (columns : List Column) (stream : RecordStream) : RecordCursor :=
  let upFront := discovers && columns.any Column.needsSample
  let resolved := m.discovered settings.sampleLimit.toNat columns
  { home, columns, settings, stream
    fallback := if upFront then .nowhere else .anyRecord home
    metadata := if upFront then some (RecordCursor.metadataOf home resolved) else none }

/-- The statement succeeds if its source delivers records. Without discovery it costs
the one call of the source. -/
theorem openCursor_eq (settings : Settings) (discovers : Bool) (home : SetAddress)
    (columns : List Column) {source : ClientM RecordStream} {m : MemoryStore} {rs : List Record}
    (hsource : Delivers source m rs) {cl : Client} (hm : cl.Serves m) :
    ∃ stream after, Statement.openCursor settings discovers home columns source cl =
        .ok (m.cursorOn settings discovers home columns stream) after ∧
      stream.events = rs.map .ok ∧ after.Serves m ∧
      (discovers = false → ∃ k, after = cl.served k) := by
  unfold Statement.openCursor
  split_ifs with hd
  · obtain ⟨found, hdiscover, hfound⟩ := hm.discover settings columns
    obtain ⟨stream, k, hrun, hserves, hevents⟩ := hsource found hfound
    refine ⟨stream, found.served k, ?_, hevents, hserves, fun hno => ?_⟩
    · simp only [bind, EStateM.bind, hdiscover, hrun, MemoryStore.cursorOn, hd, if_true]
      rfl
    · rw [hno] at hd
      cases hd
  · obtain ⟨stream, k, hrun, hserves, hevents⟩ := hsource cl hm
    refine ⟨stream, cl.served k, ?_, hevents, hserves, fun _ => ⟨k, rfl⟩⟩
    simp only [bind, EStateM.bind, hrun, MemoryStore.cursorOn, if_neg hd]
    rfl

/-- **The cursor of a statement visits the records that its source delivers.** -/
theorem openCursor_yields (settings : Settings) (discovers : Bool) (home : SetAddress)
    (columns : List Column) {source : ClientM RecordStream} {m : MemoryStore} {rs : List Record}
    (hsource : Delivers source m rs) {cl : Client} (hm : cl.Serves m) :
    ∃ after, Yields
        (Cursor.ofRecord <$> Statement.openCursor settings discovers home columns source)
        (RecordCursor.reading columns settings) cl rs after ∧
      after.Serves m ∧ (discovers = false → ∃ k, after = cl.served k) := by
  obtain ⟨stream, after, hrun, hevents, hserves, hcall⟩ :=
    openCursor_eq settings discovers home columns hsource hm
  let c := m.cursorOn settings discovers home columns stream
  obtain ⟨last, hvisits⟩ := visits_of_stream (c := c) rfl rfl rfl rfl hevents after
  refine ⟨after, ⟨.ofRecord c, last, ?_, hvisits⟩, hserves, hcall⟩
  simp only [Functor.map, EStateM.map, hrun]
  rfl

end KeyedRows
