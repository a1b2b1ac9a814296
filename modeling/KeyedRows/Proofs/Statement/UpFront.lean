/-
# Types that are discovered and types that are sampled

The types of a select can be told in two ways. They are discovered before its rows
are asked for, from the bins of the first records of its set; or its cursor samples,
when it is asked, the record that its first move will come to, or any record of the
set. The cursor adds fields for the key and its digest to that record, and lets no
wildcard stand for them, so both tell the same if nothing else has these names
(`resolve_fieldsOf`). Until the cursor moves it has its whole set ahead and samples
the first record of it (`Waiting.after`, `Waiting.sample_eq`), so it answers the same
whenever it is asked (`Tells.of_calls`).

Key definitions: `Unreserved`, `MemoryStore.toldUpFront`, `Waiting`, `Tells`.
Key theorem: **`metadata_up_front_as_sampled`**.
-/
import KeyedRows.Proofs.Cursor.Sampled
import KeyedRows.Proofs.Schema.Resolved
import KeyedRows.Proofs.Statement.Select

namespace KeyedRows

open CursorM CursorCall

/-- The name is neither that of the key column nor that of the digest. -/
def Unreserved (settings : Settings) (name : String) : Prop :=
  name ≠ settings.keyColumn ∧ name ≠ settings.digestColumn

instance (settings : Settings) (name : String) : Decidable (Unreserved settings name) :=
  inferInstanceAs (Decidable (_ ∧ _))

/-! ### The fields of a record and its bins -/

section

variable {settings : Settings} {name : String} {p : String → Bool}

/-- Under other names the fields of a record are its bins. -/
theorem RecordCursor.read_fieldsOf_of_unreserved (h : Unreserved settings name) (r : Record) :
    (fieldsOf settings r).read name = r.bins.read name := by
  unfold fieldsOf
  cases r.key with
  | none => rfl
  | some key =>
    simp only
    split_ifs <;> simp [Bins.read_insert, h.1, h.2]

theorem RecordCursor.filter_keys_fieldsOf (hkey : p settings.keyColumn = false)
    (hdigest : p settings.digestColumn = false) (r : Record) :
    (fieldsOf settings r).keys.filter p = r.bins.keys.filter p := by
  unfold fieldsOf
  cases r.key with
  | none => rfl
  | some key =>
    simp only
    split_ifs <;> simp only [OrderedMap.filter_keys_insert, hkey, hdigest]

namespace Discovery

/-- The type of a name depends on what the samples have under it. -/
theorem firstType_congr : ∀ {samples samples' : List Bins},
    samples.map (·.read name) = samples'.map (·.read name) →
      firstType samples name = firstType samples' name
  | [], [], _ => rfl
  | [], _ :: _, h => by cases h
  | _ :: _, [], h => by cases h
  | r :: samples, r' :: samples', h => by
    rw [List.map_cons, List.map_cons, List.cons.injEq] at h
    rw [firstType_cons, firstType_cons, h.1, firstType_congr h.2]

theorem firstType_fieldsOf (h : Unreserved settings name) (rs : List Record) :
    firstType (rs.map (RecordCursor.fieldsOf settings)) name =
      firstType (rs.map (·.bins)) name := by
  refine firstType_congr ?_
  rw [List.map_map, List.map_map]
  exact List.map_congr_left fun r _ => RecordCursor.read_fieldsOf_of_unreserved h r

/-- Names that are reserved among the fields make no difference if no bin has them. -/
theorem freshNames_fieldsOf {rs : List Record}
    (hbins : ∀ r ∈ rs, ∀ name ∈ r.bins.keys, Unreserved settings name) (seen : List String) :
    freshNames (seen ++ [settings.keyColumn, settings.digestColumn])
        ((rs.map (RecordCursor.fieldsOf settings)).flatMap (·.keys)) =
      freshNames seen ((rs.map (·.bins)).flatMap (·.keys)) := by
  simp only [freshNames_eq, ← eraseDups_filter, List.filter_flatMap, List.flatMap_map]
  refine congrArg List.eraseDups (List.flatMap_congr fun r hr => ?_)
  rw [RecordCursor.filter_keys_fieldsOf (by simp) (by simp)]
  refine List.filter_congr fun name hname => ?_
  obtain ⟨hkey, hdigest⟩ := hbins r hr name hname
  simp [hkey, hdigest]

/-- **Columns are resolved against the fields of records as against their bins**, if
the key and its digest have names of their own. -/
theorem resolve_fieldsOf {columns : List Column} {rs : List Record}
    (hcolumns : ∀ c ∈ columns, Unreserved settings c.name)
    (hbins : ∀ r ∈ rs, ∀ name ∈ r.bins.keys, Unreserved settings name) :
    resolve columns (fun _ => rs.map (RecordCursor.fieldsOf settings))
        [settings.keyColumn, settings.digestColumn] =
      resolve columns (fun _ => rs.map (·.bins)) [] := by
  refine List.flatMap_congr fun c hc => ?_
  unfold resolveColumn
  split_ifs
  · rfl
  · rw [firstType_fieldsOf (hcolumns c hc)]
  · rw [expand, expand, freshNames_fieldsOf hbins, List.append_nil]
    refine List.map_congr_left fun name hname => ?_
    obtain ⟨r, hr, hname⟩ : ∃ r ∈ rs, name ∈ r.bins.keys := by
      simpa using (mem_freshNames.mp hname).1
    rw [firstType_fieldsOf (hbins r hr name hname)]

end Discovery

end

/-! ### Cursors that have not moved -/

/-- What a select without predicates tells of its columns, by the first record of its
set. -/
def MemoryStore.toldUpFront (m : MemoryStore) (home : SetAddress) (columns : List Column) :
    ResultMetadata :=
  if columns.any Column.needsSample then RecordCursor.metadataOf home (m.discovered 1 columns)
  else ResultMetadata.ofColumns columns

namespace RecordCursor

variable {m : MemoryStore} {md : ResultMetadata} {s : RecordCursor × Client} {k : CursorCall}

/-- What the cursor makes of its columns, if these records are sampled. -/
def toldBy (c : RecordCursor) (rs : List Record) : ResultMetadata :=
  if c.columns.any Column.needsSample then
    metadataOf c.home (Discovery.resolve c.columns (fun _ => rs.map (fieldsOf c.settings))
      [c.settings.keyColumn, c.settings.digestColumn])
  else ResultMetadata.ofColumns c.columns

/-- The cursor has its whole set ahead, and may ask for any record of it. -/
structure Waiting (m : MemoryStore) (s : RecordCursor × Client) : Prop where
  placed : WellPlaced s.1
  offRow : s.1.current = none
  ahead : s.1.ahead = (m.recordsOf s.1.home).map .ok
  fallback : s.1.fallback = .anyRecord s.1.home
  serves : s.2.Serves m

/-- No failure lies ahead. -/
theorem Waiting.not_took (h : Waiting m s) {e : Error} {d : RecordCursor} : ¬ Took s.1 e d :=
  not_took_of_ahead h.ahead

/-- The first record of the set is sampled, if there is one. -/
theorem Waiting.sample_eq (h : Waiting m s) :
    ∃ t, sample s = .ok (m.recordsOf s.1.home).head? t := by
  obtain ⟨c, cl⟩ := s
  have hhead : c.ahead.head? = (m.recordsOf c.home).head?.map .ok := by
    rw [h.ahead, List.head?_map]
  rcases sample_cases h.placed cl with ⟨r, hr, -⟩ |
      ⟨-, d, -, hfallback, ⟨r, hr, hs⟩ | ⟨hnil, hs⟩⟩ | ⟨-, e, d, ht, -⟩
  · cases hr.symm.trans h.offRow
  · obtain ⟨r', hr', hsame⟩ := Option.map_eq_some_iff.mp (hhead.symm.trans hr)
    cases hsame
    exact ⟨_, hr'.symm ▸ hs⟩
  · -- an empty set is asked for a record, and has none
    have hasks : d.fallback = .anyRecord c.home := hfallback.trans h.fallback
    have hasked : askFallback (d, cl) =
        .ok (m.recordsOf c.home).head? (d, cl.served (.anyRecord c.home)) := by
      simp only [askFallback, bind_apply, cursor_apply, hasks, onClient, Client.anyRecord,
        h.serves.call_eq]
      rfl
    exact ⟨_, hs.trans hasked⟩
  · exact absurd ht h.not_took

theorem Waiting.computeMetadata_eq (h : Waiting m s) :
    ∃ t, computeMetadata s = .ok (s.1.toldBy ((m.recordsOf s.1.home).take 1)) t := by
  obtain ⟨c, cl⟩ := s
  obtain ⟨t, hs⟩ := h.sample_eq
  unfold computeMetadata toldBy
  simp only [bind_apply, cursor_apply, List.take_one]
  cases c.columns.any Column.needsSample with
  | false => exact ⟨_, rfl⟩
  | true =>
    simp only [Bool.not_true, Bool.false_eq_true, if_false, bind_apply, hs]
    exact ⟨_, rfl⟩

/-- **What neither moves nor closes leaves the cursor where it is**, if it is not asked
for metadata either. -/
theorem Waiting.after (h : Waiting m s) (hnext : k ≠ .next) (hfirst : k ≠ .first)
    (hclose : k ≠ .close) (hk : k.asksMetadata = false) : Waiting m (k.after s) := by
  obtain ⟨c, cl⟩ := s
  have hnever : (Exchange.mk (c, cl) k).moved? = none := CursorCall.moved?_of_stays hnext hfirst _
  have hstill := still_of_call hclose hk (c, cl)
  have hstep : Step ⟨(c, cl), k⟩ := call_step h.placed hclose
  have hlooked : Looked c (k.after (c, cl)).1 := by
    rcases hstep.did with ⟨r, hmoved, -⟩ | ⟨hmoved, -⟩ | ⟨e, -, -, ht⟩ | ⟨-, hlooked, -⟩
    · cases hnever.symm.trans hmoved
    · cases hnever.symm.trans hmoved
    · exact absurd ht h.not_took
    · exact hlooked
  exact
    { placed := hstep.placed
      offRow := hlooked.place.current.trans h.offRow
      ahead := by rw [hlooked.ahead, hstill.home, h.ahead]
      fallback := by rw [hstill.home, hstill.fallback _ h.fallback]
      serves := hstill.sameClient ▸ h.serves }

/-- Asked for metadata, the cursor answers with these: it keeps them, or makes them of
the first record of its set. -/
inductive Tells (m : MemoryStore) (md : ResultMetadata) (s : RecordCursor × Client) : Prop where
  | kept : WellPlaced s.1 → s.1.metadata = some md → Tells m md s
  | waiting : Waiting m s → s.1.metadata = none →
      s.1.toldBy ((m.recordsOf s.1.home).take 1) = md → Tells m md s

theorem Tells.placed (h : Tells m md s) : WellPlaced s.1 := by
  cases h with
  | kept hplaced => exact hplaced
  | waiting hwaiting => exact hwaiting.placed

theorem Tells.answer (h : Tells m md s) : CursorCall.metadata.answer s = .ok md := by
  cases h with
  | kept hplaced hkept => exact answered_of_kept hplaced.isOpen hkept s.2
  | waiting hwaiting hnone hmd =>
    obtain ⟨t, hmade⟩ := hwaiting.computeMetadata_eq
    rw [hmd] at hmade
    have hrun : CursorCall.metadata.run s = getMetadata s := rfl
    rcases metadata_cases hwaiting.placed.isOpen s.2 with ⟨m', hkept, -⟩ | ⟨m', u, -, hc, hm⟩ |
        ⟨e, u, -, hc, -⟩
    · cases hnone.symm.trans hkept
    · cases hmade.symm.trans hc
      exact answer_ok (hrun.trans hm)
    · cases hmade.symm.trans hc

/-- A call that neither moves nor closes does not change what is told. -/
theorem Tells.after (h : Tells m md s) (hnext : k ≠ .next) (hfirst : k ≠ .first)
    (hclose : k ≠ .close) : Tells m md (k.after s) := by
  have hplaced : WellPlaced (k.after s).1 := (call_step h.placed hclose).placed
  cases hk : k.asksMetadata with
  | true =>
    rw [RowCursor.asks_after hk] at hplaced ⊢
    exact .kept hplaced (kept_of_answered h.placed.isOpen h.answer)
  | false =>
    have hstill := still_of_call hclose hk s
    cases h with
    | kept _ hkept => exact .kept hplaced (hstill.sameMetadata.trans hkept)
    | waiting hwaiting hnone hmd =>
      refine .waiting (hwaiting.after hnext hfirst hclose hk) (hstill.sameMetadata.trans hnone) ?_
      simp only [toldBy, hstill.home, hstill.columns, hstill.settings]
      exact hmd

/-- **Until the cursor moves or is closed, it tells the same.** -/
theorem Tells.of_calls (h : Tells m md s) (calls : List CursorCall)
    (hcalls : ∀ k ∈ calls, k ≠ .next ∧ k ≠ .first ∧ k ≠ .close) :
    Tells m md (afterAll s calls) :=
  (exchanges_keep (I := Tells m md) (fun _ _ ht hk => ht.after hk.1 hk.2.1 hk.2.2) calls s h
    hcalls).1

end RecordCursor

/-! ### Selects without predicates -/

open RecordCursor

variable {m : MemoryStore} {settings : Settings} {home : SetAddress} {columns : List Column}

/-- A cursor on a stream of its set tells the same, whether types were discovered for
it from one record or not. -/
theorem MemoryStore.cursorOn_tells {discovers : Bool}
    (hlimit : discovers = true → settings.sampleLimit = 1)
    (htable : ∀ c ∈ columns, Discovery.tableOf c = home)
    (hcolumns : ∀ c ∈ columns, Unreserved settings c.name)
    (hbins : ∀ r, (m.recordsOf home).head? = some r →
      ∀ name ∈ r.bins.keys, Unreserved settings name)
    {stream : RecordStream} (hevents : stream.events = (m.recordsOf home).map .ok) {cl : Client}
    (hm : cl.Serves m) :
    Tells m (m.toldUpFront home columns)
      (m.cursorOn settings discovers home columns stream, cl) := by
  have hplaced : WellPlaced (m.cursorOn settings discovers home columns stream) :=
    wellPlaced_of_new rfl rfl rfl
  cases hup : discovers && columns.any Column.needsSample with
  | true =>
    obtain ⟨hdiscovers, hneeds⟩ := Bool.and_eq_true_iff.mp hup
    refine .kept hplaced ?_
    simp only [cursorOn, hup, if_true, hlimit hdiscovers]
    rw [toldUpFront, if_pos hneeds]
    rfl
  | false =>
    refine .waiting ⟨hplaced, rfl, hevents, ?_, hm⟩ ?_ ?_
    · simp [cursorOn, hup]
    · simp [cursorOn, hup]
    · have hfirst : ∀ r ∈ (m.recordsOf home).take 1, ∀ name ∈ r.bins.keys,
          Unreserved settings name := fun r hr => by
        rw [List.take_one, Option.mem_toList] at hr
        exact hbins r hr
      have hsame : ∀ c ∈ columns, c.needsSample = true →
          ((m.recordsOf home).take 1).map (·.bins) =
            ((m.recordsOf (Discovery.tableOf c)).take 1).map (·.bins) := fun c hc _ => by
        rw [htable c hc]
      simp only [toldBy, toldUpFront, discovered, cursorOn]
      rw [Discovery.resolve_fieldsOf hcolumns hfirst, Discovery.resolve_congr hsame]
      rfl

/-- A select of a whole set succeeds, and until its cursor moves or is closed it tells
of its columns by the first record. -/
theorem Select.tells_of_run {s : Select} (hplan : s.plan = .start home.space (some home.name))
    (hlimit : s.discovers = true → s.settings.sampleLimit = 1)
    (htable : ∀ c ∈ s.columns, Discovery.tableOf c = home)
    (hcolumns : ∀ c ∈ s.columns, Unreserved s.settings c.name)
    (hbins : ∀ r, (m.recordsOf home).head? = some r →
      ∀ name ∈ r.bins.keys, Unreserved s.settings name)
    {cl : Client} (hm : cl.Serves m) :
    ∃ cursor after, s.run cl = .ok cursor after ∧
      ∀ calls : List CursorCall, (∀ k ∈ calls, k ≠ .next ∧ k ≠ .first ∧ k ≠ .close) →
        CursorCall.metadata.answer (afterAll (cursor, after) calls) =
          .ok (m.toldUpFront home s.columns) := by
  have hhome : s.plan.home? = some home := by
    rw [hplan]
    rfl
  have hdelivers : Delivers s.plan.execute m (m.recordsOf home) := by
    have hall := execute_delivers hhome m
    rw [hplan] at hall ⊢
    simpa [QueryPlan.start, MemoryStore.fetched, passes] using hall
  obtain ⟨stream, after, hrun, hevents, hafter, -⟩ :=
    openCursor_eq s.settings s.discovers home s.columns hdelivers hm
  refine ⟨.ofRecord (m.cursorOn s.settings s.discovers home s.columns stream), after, ?_,
    fun calls hcalls => ?_⟩
  · simp only [run, hhome, openRows, Functor.map, EStateM.map, hrun]
  · have htells := (m.cursorOn_tells hlimit htable hcolumns hbins hevents hafter).of_calls
      calls hcalls
    have hwrapped := Cursor.carries_ofRecord.afterAll calls
      (m.cursorOn s.settings s.discovers home s.columns stream, after)
    rw [hwrapped, Cursor.carries_ofRecord.answer]
    exact htells.answer

/-- **Discovery from one record tells what sampling does.** A select of a whole set, of
which all columns are of this set and neither a column nor a bin of its first record
has the name of the key column or of the digest, succeeds with discovery from one
record up front and without any. Whatever is called on the two cursors before they move
or are closed, both answer with the same metadata when they are asked. -/
theorem metadata_up_front_as_sampled (m : MemoryStore) (cl : Client) (hm : cl.Serves m)
    (settings : Settings) (setName : String) (columns : List Column)
    (htable : ∀ c ∈ columns, Discovery.tableOf c = ⟨settings.space, setName⟩)
    (hcolumns : ∀ c ∈ columns, Unreserved settings c.name)
    (hbins : ∀ r, (m.recordsOf ⟨settings.space, setName⟩).head? = some r →
      ∀ name ∈ r.bins.keys, Unreserved settings name) :
    ∃ sampling : Select, Select.prepare settings (some setName) columns [] = .ok sampling ∧
      let upFront : Select :=
        { sampling with settings := { settings with sampleLimit := 1 }, discovers := true }
      ∃ discovered after sampled after',
        upFront.run cl = .ok discovered after ∧ sampling.run cl = .ok sampled after' ∧
        ∀ calls : List CursorCall, (∀ k ∈ calls, k ≠ .next ∧ k ≠ .first ∧ k ≠ .close) →
          let told := m.toldUpFront ⟨settings.space, setName⟩ columns
          CursorCall.metadata.answer (afterAll (discovered, after) calls) = .ok told ∧
            CursorCall.metadata.answer (afterAll (sampled, after') calls) = .ok told := by
  let sampling : Select := { settings, plan := .start settings.space (some setName), columns }
  let upFront : Select :=
    { sampling with settings := { settings with sampleLimit := 1 }, discovers := true }
  obtain ⟨discovered, after, hdiscovered, htold⟩ :=
    Select.tells_of_run (s := upFront) rfl (fun _ => rfl) htable hcolumns hbins hm
  obtain ⟨sampled, after', hsampled, htold'⟩ :=
    Select.tells_of_run (s := sampling) rfl nofun htable hcolumns hbins hm
  exact ⟨sampling, rfl, discovered, after, sampled, after', hdiscovered, hsampled,
    fun calls hcalls => ⟨htold calls hcalls, htold' calls hcalls⟩⟩

/-- A labelled column and a wildcard over two records, of which only the first is told
of. -/
theorem first_of_two_records_told :
    let home : SetAddress := ⟨"test", "people"⟩
    let ada : Bins := .ofList [("age", .int64 36), ("name", .text "Ada")]
    let m := (MemoryStore.put {} ⟨home, .int 1⟩ ada).put ⟨home, .int 2⟩
      (.ofList [("age", .text "old"), ("city", .text "rome")])
    let cl : Client := { store := .memory m }
    let age : Column := { name := "age", label := some "years", schema := "test", table := "people" }
    let everyone : Column := { name := "*", schema := "test", table := "people" }
    let name : Column := { name := "name", type := .varchar, schema := "test", table := "people" }
    let columns := [age, everyone]
    cl.Serves m ∧ (∀ c ∈ columns, Discovery.tableOf c = home) ∧
      (∀ c ∈ columns, Unreserved {} c.name) ∧
      (∀ r, (m.recordsOf home).head? = some r → ∀ name ∈ r.bins.keys, Unreserved {} name) ∧
      (m.toldUpFront home columns).columns = [{ age with type := .bigInt }, name] ∧
      ∃ sampling : Select, Select.prepare {} (some "people") columns [] = .ok sampling ∧
        let upFront : Select :=
          { sampling with settings := { ({} : Settings) with sampleLimit := 1 }, discovers := true }
        ∃ discovered after sampled after',
          upFront.run cl = .ok discovered after ∧ sampling.run cl = .ok sampled after' ∧
          ∀ calls : List CursorCall, (∀ k ∈ calls, k ≠ .next ∧ k ≠ .first ∧ k ≠ .close) →
            let told := m.toldUpFront home columns
            CursorCall.metadata.answer (afterAll (discovered, after) calls) = .ok told ∧
              CursorCall.metadata.answer (afterAll (sampled, after') calls) = .ok told := by
  intro home ada m cl age everyone name columns
  have hm : cl.Serves m := ⟨rfl, rfl⟩
  have htable : ∀ c ∈ columns, Discovery.tableOf c = home := by decide
  have hcolumns : ∀ c ∈ columns, Unreserved {} c.name := by decide
  have hbins : ∀ r, (m.recordsOf home).head? = some r →
      ∀ name ∈ r.bins.keys, Unreserved {} name := by
    have hfirst : (m.recordsOf home).head? = some ⟨some ⟨home, .int 1⟩, ada⟩ := by cbv
    intro r hr
    cases hfirst.symm.trans hr
    decide
  have htold : (m.toldUpFront home columns).columns = [{ age with type := .bigInt }, name] := by
    cbv
  exact ⟨hm, htable, hcolumns, hbins, htold,
    metadata_up_front_as_sampled m cl hm {} "people" columns htable hcolumns hbins⟩

end KeyedRows
