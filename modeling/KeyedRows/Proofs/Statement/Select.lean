/-
# What a select returns

A select over a set visits the records of the set that pass the filters of its
predicates and, if a predicate asks for a key, have the last key asked for
(`Selected`). They come in the order of their keys, each once, whichever way
the plan fetches them: its call and the filters that stay behind make up the
same choice (`fetched_selected`, `execute_fetched`).

Key definitions: `MemoryStore.selected`, `Selected`.
Key theorem: **`select_exact`**.
-/
import KeyedRows.Proofs.Plan.Conditions
import KeyedRows.Proofs.Statement.Source
import KeyedRows.Statement.Select

namespace KeyedRows

/-! ### The records of a plan -/

theorem passes_perm {fs gs : List Filter} (h : fs.Perm gs) (bins : Bins) :
    passes fs bins = passes gs bins := h.all_eq

namespace RecordStream

/-- A stream of records delivers those that its filters let pass. -/
theorem events_restrict {s : RecordStream} {rs : List Record} (hs : s.pending = rs.map .ok)
    (hf : s.filters = []) (fs : List Filter) :
    (s.restrict fs).events = (rs.filter fun r => passes fs r.bins).map .ok := by
  simp only [events, restrict, hs, hf, List.nil_append, List.filter_map]
  rfl

end RecordStream

namespace MemoryStore

/-- The records of a set that meet conditions: they pass the filters and have
the last key. -/
def selected (m : MemoryStore) (home : SetAddress) (cs : List Condition) : List Record :=
  (m.recordsOf home).filter fun r =>
    passes (filtersOf cs) r.bins && (lastKey cs).all fun key => r.key == some key

theorem precedes_irrefl {home : SetAddress} (r : Record) : ¬ Record.Precedes home r r := by
  rintro ⟨u, v, hu, hv, hlt⟩
  rw [hu] at hv
  cases hv
  have hself : compare u u = .eq := Std.ReflCmp.compare_self
  rw [hself] at hlt
  cases hlt

/-- A set has at most one record under a key. -/
theorem recordsOf_filter_key (m : MemoryStore) (key : Key) :
    ((m.recordsOf key.home).filter fun r => r.key == some key) =
      (m.find? key).toList.map fun bins => ⟨some key, bins⟩ := by
  have hmem : ∀ r ∈ (m.recordsOf key.home).filter fun r => r.key == some key,
      r.key = some key ∧ m.find? key = some r.bins := by
    intro r hr
    obtain ⟨hr, hkey⟩ := List.mem_filter.mp hr
    obtain ⟨user, huser, hfind⟩ := mem_recordsOf.mp hr
    have hk : r.key = some key := by simpa using hkey
    rw [hk] at huser
    rw [← Option.some.inj huser] at hfind
    exact ⟨hk, hfind⟩
  cases hfind : m.find? key with
  | none =>
    refine List.eq_nil_iff_forall_not_mem.mpr fun r hr => ?_
    have := (hmem r hr).2
    rw [hfind] at this
    cases this
  | some bins =>
    have hall : ∀ r ∈ (m.recordsOf key.home).filter fun r => r.key == some key,
        r = ⟨some key, bins⟩ := by
      rintro ⟨k, b⟩ hr
      obtain ⟨hk, hb⟩ := hmem _ hr
      rw [hfind] at hb
      exact congr (congrArg Record.mk hk) (Option.some.inj hb).symm
    have hin : (⟨some key, bins⟩ : Record) ∈
        (m.recordsOf key.home).filter fun r => r.key == some key :=
      List.mem_filter.mpr ⟨mem_recordsOf.mpr ⟨key.user, rfl, hfind⟩, by simp⟩
    have hpair := (m.recordsOf_ascending key.home).filter fun r => r.key == some key
    rw [List.eq_replicate_of_mem hall] at hpair hin ⊢
    rcases List.pairwise_replicate.mp hpair with hle | habs
    · have hpos := (List.mem_replicate.mp hin).1
      have hone : ((m.recordsOf key.home).filter fun r => r.key == some key).length = 1 := by omega
      rw [hone]
      rfl
    · exact absurd habs (precedes_irrefl _)

/-- What the call of a plan fetches from its set. -/
def fetched (m : MemoryStore) (home : SetAddress) : Access → List Record
  | .point key => (m.find? key).toList.map fun bins => ⟨some key, bins⟩
  | .pushed f => (m.recordsOf home).filter fun r => f.accepts r.bins
  | .fullScan => m.recordsOf home

/-- **What a plan fetches and lets pass meets its conditions**, and nothing
else of its set does. -/
theorem fetched_selected (m : MemoryStore) {p : QueryPlan} {cs : List Condition}
    (h : p.Planned cs) {home : SetAddress} (hkeys : ∀ key, lastKey cs = some key → key.home = home) :
    ((m.fetched home p.access).filter fun r => passes p.residual r.bins) =
      m.selected home cs := by
  obtain ⟨space, setName, access, residual⟩ := p
  obtain ⟨haccess, hfilters⟩ := h
  simp only [QueryPlan.pushed?] at haccess hfilters
  unfold selected
  cases hkey : lastKey cs with
  | some key =>
    rw [hkey] at haccess
    subst haccess
    have hhome : key.home = home := hkeys key hkey
    simp only [fetched, ← hhome, ← recordsOf_filter_key, List.filter_filter, Option.all_some]
    refine List.filter_congr fun r _ => ?_
    rw [← passes_perm hfilters, Option.toList_none, List.nil_append]
  | none =>
    cases hfs : filtersOf cs with
    | nil =>
      rw [hkey, hfs] at haccess
      subst haccess
      rw [hfs] at hfilters
      have hnil : residual = [] := by simpa using hfilters
      simp [fetched, hnil]
    | cons f fs =>
      rw [hkey, hfs] at haccess
      subst haccess
      simp only [fetched, List.filter_filter, Option.all_none, Bool.and_true]
      refine List.filter_congr fun r _ => ?_
      rw [← hfs, ← passes_perm hfilters]
      simp [passes, Bool.and_comm]

end MemoryStore

section

variable {p : QueryPlan} {home : SetAddress} {m : MemoryStore} {cl : Client}

/-- The residual filters stand before the reader of what is fetched. -/
theorem execute_of_fetch (hhome : p.home? = some home) {s : RecordStream} {after : Client}
    (hf : p.fetch home cl = .ok s after) : p.execute cl = .ok (s.restrict p.residual) after := by
  simp only [QueryPlan.execute, hhome, bind, EStateM.bind, hf]
  rfl

/-- A look-up gives a stream of its own, which the store does not count. -/
theorem execute_point (hhome : p.home? = some home) {key : Key} (hpoint : p.access = .point key)
    (hm : cl.Serves m) :
    p.execute cl = .ok ((RecordStream.ofRecords (m.fetched home p.access)).restrict p.residual)
      (cl.served (.get key)) := by
  refine execute_of_fetch hhome ?_
  simp only [QueryPlan.fetch, hpoint, bind, EStateM.bind, hm.get_eq]
  rfl

/-- A plan over a set makes one call, which leaves the store as it is, and its
stream delivers what the call fetches and the residual filters let pass. -/
theorem execute_fetched (hhome : p.home? = some home) (hm : cl.Serves m) :
    ∃ stream k, p.execute cl = .ok stream (cl.served k) ∧ (cl.served k).Serves m ∧
      stream.events =
        ((m.fetched home p.access).filter fun r => passes p.residual r.bins).map .ok := by
  cases hac : p.access with
  | fullScan =>
    have hf : p.fetch home cl = .ok (Client.deliver (m.recordsOf home)) (cl.served (.scan home)) := by
      simp only [QueryPlan.fetch, hac, hm.scan_eq]
    exact ⟨_, _, execute_of_fetch hhome hf, hm.served _, RecordStream.events_restrict rfl rfl _⟩
  | pushed f =>
    let q : IndexQuery := { home, filter := f }
    have hf : p.fetch home cl = .ok (Client.deliver (m.matching q)) (cl.served (.query q)) := by
      simp only [QueryPlan.fetch, hac, q, hm.query_eq]
    exact ⟨_, _, execute_of_fetch hhome hf, hm.served _, RecordStream.events_restrict rfl rfl _⟩
  | point key =>
    refine ⟨_, _, execute_point hhome hac hm, hm.served _, ?_⟩
    rw [hac]
    exact RecordStream.events_restrict rfl rfl _

end

/-- In a store in memory a plan over a set delivers what its call fetches and
its residual filters let pass. -/
theorem execute_delivers {p : QueryPlan} {home : SetAddress} (hhome : p.home? = some home)
    (m : MemoryStore) :
    Delivers p.execute m ((m.fetched home p.access).filter fun r => passes p.residual r.bins) :=
  fun _ hm => execute_fetched hhome hm

/-- **A select over a set gives the records that meet the conditions of its
plan**, whether it discovers types first or not. -/
theorem select_yields {s : Select} {cs : List Condition} (hplan : s.plan.Planned cs)
    {home : SetAddress} (hhome : s.plan.home? = some home)
    (hkeys : ∀ key, lastKey cs = some key → key.home = home) {m : MemoryStore} {cl : Client}
    (hm : cl.Serves m) :
    ∃ after, Yields s.run (RecordCursor.reading s.columns s.settings) cl (m.selected home cs)
        after ∧ after.Serves m ∧ (s.discovers = false → ∃ k, after = cl.served k) := by
  have hrun : s.run = Cursor.ofRecord <$>
      Statement.openCursor s.settings s.discovers home s.columns s.plan.execute := by
    simp only [Select.run, hhome]
    rfl
  rw [hrun, ← m.fetched_selected hplan hkeys]
  exact openCursor_yields _ _ _ _ (execute_delivers hhome m) hm

/-- The keys that predicates ask for are in their set. -/
theorem home_of_lastKey {keyColumn : String} {home : SetAddress} {predicates : List Predicate}
    {cs : List Condition} (h : predicates.map (·.condition? keyColumn home) = cs.map some) (key : Key)
    (hkey : lastKey cs = some key) : key.home = home := by
  have hmem : some (Condition.key key) ∈ cs.map some := List.mem_map.mpr ⟨_, mem_of_lastKey hkey, rfl⟩
  rw [← h] at hmem
  obtain ⟨p, -, hp⟩ := List.mem_map.mp hmem
  exact Predicate.home_of_condition hp

/-- **Predicates that all ask for something select the records that meet what
they ask for.** -/
theorem select_of_conditions {settings : Settings} {setName : String} (columns : List Column)
    {predicates : List Predicate} {cs : List Condition}
    (hcs : predicates.map (·.condition? settings.keyColumn ⟨settings.space, setName⟩) =
      cs.map some) (discovers : Bool) {m : MemoryStore} {cl : Client} (hm : cl.Serves m) :
    ∃ s after, Select.prepare settings (some setName) columns predicates = .ok s ∧
      Yields ({ s with discovers } : Select).run (RecordCursor.reading columns settings) cl
        (m.selected ⟨settings.space, setName⟩ cs) after ∧ after.Serves m := by
  let plan := cs.foldl QueryPlan.withCondition (QueryPlan.start settings.space (some setName))
  have hprepare : Select.prepare settings (some setName) columns predicates =
      .ok { settings, plan, columns } := by
    rw [Select.prepare, ofPredicates_of_conditions hcs]
    rfl
  obtain ⟨hspace, hset⟩ := QueryPlan.home?_conditions settings.space (some setName) cs
  have hhome : plan.home? = some ⟨settings.space, setName⟩ := by
    rw [QueryPlan.home?, hset, hspace]
    rfl
  obtain ⟨after, hyields, hafter, -⟩ := select_yields
    (s := { settings, plan, columns, discovers })
    (QueryPlan.planned_conditions settings.space (some setName) cs) hhome (home_of_lastKey hcs) hm
  exact ⟨_, after, hprepare, hyields, hafter⟩

/-- A predicate selects the records that meet what it asks for. -/
theorem select_of_condition {settings : Settings} {setName : String} (columns : List Column)
    {p : Predicate} {c : Condition}
    (hc : p.condition? settings.keyColumn ⟨settings.space, setName⟩ = some c) (discovers : Bool)
    {m : MemoryStore} {cl : Client} (hm : cl.Serves m) :
    ∃ s after, Select.prepare settings (some setName) columns [p] = .ok s ∧
      Yields ({ s with discovers } : Select).run (RecordCursor.reading columns settings) cl
        (m.selected ⟨settings.space, setName⟩ [c]) after := by
  have hcs : [p].map (·.condition? settings.keyColumn ⟨settings.space, setName⟩) =
      [c].map some := by
    rw [List.map_singleton, hc]
    rfl
  obtain ⟨s, after, hprepare, hyields, -⟩ := select_of_conditions columns hcs discovers hm
  exact ⟨s, after, hprepare, hyields⟩

/-- The cursor of a select that discovers nothing costs one call. -/
theorem run_visits {s : Select} {cs : List Condition} (hplan : s.plan.Planned cs)
    (hdiscovers : s.discovers = false) {home : SetAddress} (hhome : s.plan.home? = some home)
    (hkeys : ∀ key, lastKey cs = some key → key.home = home) {m : MemoryStore} {cl : Client}
    (hm : cl.Serves m) :
    ∃ cursor last k, s.run cl = .ok cursor (cl.served k) ∧
      Visits (Cursor.Shows (RecordCursor.reading s.columns s.settings)) (cursor, cl.served k)
        (m.selected home cs) (last, cl.served k) := by
  obtain ⟨after, ⟨cursor, last, hrun, hvisits⟩, -, hcall⟩ := select_yields hplan hhome hkeys hm
  obtain ⟨k, rfl⟩ := hcall hdiscovers
  exact ⟨cursor, last, k, hrun, hvisits⟩

/-- The constant cursor visits one row, which has no columns, and asks the
client for nothing. -/
theorem constant_visits (cl : Client) :
    ∃ last, Visits (Cursor.Shows fun _ label => .error (.columnNotFound label))
      (Cursor.ofStatic .constant, cl) [⟨none, {}⟩] (last, cl) := by
  let on : StaticCursor := { StaticCursor.constant with
    rows := [], current := some {}, state := CursorState.advance {} }
  let off : StaticCursor := { on with current := none, state := on.state.finish }
  have hmove : RowCursor.next (Cursor.ofStatic .constant, cl) = .ok true (.ofStatic on, cl) := rfl
  have hend : RowCursor.next (Cursor.ofStatic on, cl) = .ok false (.ofStatic off, cl) := rfl
  have hreads : Reads (Cursor.ofStatic on, cl) fun label => .error (.columnNotFound label) :=
    RowCursor.reads_of_readValue rfl fun _ => rfl
  exact ⟨.ofStatic off, .moved hmove ⟨rfl, hreads⟩ (.ended hend)⟩

/-! ### What a select is asked for -/

/-- The record is stored in the set, passes the filters of the conditions, and
has the last key that they ask for. -/
structure Selected (m : MemoryStore) (home : SetAddress) (cs : List Condition) (r : Record) :
    Prop where
  stored : ∃ user, r.key = some ⟨home, user⟩ ∧ m.find? ⟨home, user⟩ = some r.bins
  filters : ∀ f ∈ filtersOf cs, f.accepts r.bins = true
  key : ∀ key, lastKey cs = some key → r.key = some key

theorem MemoryStore.mem_selected {m : MemoryStore} {home : SetAddress} {cs : List Condition}
    {r : Record} : r ∈ m.selected home cs ↔ Selected m home cs r := by
  rw [selected, List.mem_filter, mem_recordsOf, Bool.and_eq_true, passes, List.all_eq_true]
  constructor
  · rintro ⟨hstored, hfilters, hkey⟩
    refine ⟨hstored, hfilters, fun key hlast => ?_⟩
    simpa [hlast] using hkey
  · rintro ⟨hstored, hfilters, hkey⟩
    refine ⟨hstored, hfilters, ?_⟩
    cases hlast : lastKey cs with
    | none => rfl
    | some key => simp [hkey key hlast]

theorem Select.prepare_eq_ok {settings : Settings} {setName : Option String}
    {columns : List Column} {predicates : List Predicate} {s : Select}
    (h : Select.prepare settings setName columns predicates = .ok s) :
    ∃ plan, QueryPlan.ofPredicates (.builtIn settings.keyColumn) settings.space setName predicates =
      .ok plan ∧ s = { settings, plan, columns } := by
  unfold Select.prepare at h
  cases hp : QueryPlan.ofPredicates (.builtIn settings.keyColumn) settings.space setName predicates with
  | error e => rw [hp] at h; cases h
  | ok plan => rw [hp] at h; cases h; exact ⟨plan, rfl, rfl⟩

/-- **A select visits exactly the records that it asks for, each once and in
the order of their keys**: those of its set that pass the filters of its
predicates and have the last key that a predicate asks for. Without a set it
has one row without columns, and asks the client for nothing. -/
theorem select_exact (settings : Settings) (setName : Option String) (columns : List Column)
    (predicates : List Predicate) (s : Select)
    (hs : Select.prepare settings setName columns predicates = .ok s) (m : MemoryStore)
    (cl : Client) (hm : cl.Serves m) :
    match setName with
    | some name =>
      let home : SetAddress := ⟨settings.space, name⟩
      ∃ cs cursor last after rows,
        predicates.map (·.condition? settings.keyColumn home) = cs.map some ∧
        s.run cl = .ok cursor after ∧
        Visits (Cursor.Shows (RecordCursor.reading columns settings)) (cursor, after) rows
          (last, after) ∧
        rows.Pairwise (Record.Precedes home) ∧ ∀ r, r ∈ rows ↔ Selected m home cs r
    | none =>
      ∃ cursor last, s.run cl = .ok cursor cl ∧
        Visits (Cursor.Shows fun _ label => .error (.columnNotFound label)) (cursor, cl)
          [⟨none, {}⟩] (last, cl) ∧
        CursorCall.metadata.answer (cursor, cl) = .ok {} := by
  obtain ⟨plan, hplan, rfl⟩ := Select.prepare_eq_ok hs
  obtain ⟨cs, hcs, rfl⟩ := planned_ofPredicates hplan
  obtain ⟨hspace, hset⟩ := QueryPlan.home?_conditions settings.space setName cs
  have hplanned := QueryPlan.planned_conditions settings.space setName cs
  cases setName with
  | some name =>
    have hhome : (cs.foldl QueryPlan.withCondition (.start settings.space (some name))).home? =
        some ⟨settings.space, name⟩ := by
      rw [QueryPlan.home?, hset, hspace]
      rfl
    obtain ⟨cursor, last, k, hrun, hvisits⟩ :=
      run_visits (s := { settings, plan := _, columns }) hplanned rfl hhome
        (home_of_lastKey hcs) hm
    exact ⟨cs, cursor, last, _, _, hcs, hrun, hvisits,
      (m.recordsOf_ascending _).filter _, fun r => MemoryStore.mem_selected⟩
  | none =>
    obtain ⟨last, hvisits⟩ := constant_visits cl
    refine ⟨.ofStatic .constant, last, ?_, hvisits, rfl⟩
    have hhome : (cs.foldl QueryPlan.withCondition (.start settings.space none)).home? = none := by
      rw [QueryPlan.home?, hset]
      rfl
    simp only [Select.run, hhome]
    rfl

/-- A filter, a key, and a filter that has to stay behind, over two records. -/
theorem select_exact_of_three_predicates :
    let home : SetAddress := ⟨"test", "people"⟩
    let predicates : List Predicate :=
      [.ofSymbol "year" ">" [.int32 1990], .equal "PK" (.int64 2), .ofSymbol "name" "=" [.text "ann"]]
    let m := (MemoryStore.put {} ⟨home, .int 1⟩ (.ofList [("year", .int64 1995)])).put ⟨home, .int 2⟩
      (.ofList [("name", .text "ann"), ("year", .int64 1995)])
    let cl : Client := { store := .memory m }
    let plan : QueryPlan :=
      { space := "test"
        setName := some "people"
        access := .point ⟨home, .int 2⟩
        residual := [.within "year" 1990 Int64.maxValue, .equals "name" (.text "ann")] }
    let s : Select := { settings := {}, plan, columns := [] }
    Select.prepare {} (some "people") [] predicates = .ok s ∧ cl.Serves m ∧
      ∃ cs cursor last after rows,
        predicates.map (·.condition? "PK" home) = cs.map some ∧
        s.run cl = .ok cursor after ∧
        Visits (Cursor.Shows (RecordCursor.reading [] {})) (cursor, after) rows (last, after) ∧
        rows.Pairwise (Record.Precedes home) ∧ ∀ r, r ∈ rows ↔ Selected m home cs r := by
  intro home predicates m cl plan s
  have hs : Select.prepare {} (some "people") [] predicates = .ok s := by cbv
  have hm : cl.Serves m := ⟨rfl, rfl⟩
  exact ⟨hs, hm, select_exact {} (some "people") [] predicates s hs m cl hm⟩

end KeyedRows
