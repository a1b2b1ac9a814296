/-
# What discovery fetches

Gathering samples is one pass over the tables that columns need samples of, each
at the place of its first such column (`gather_eq`). A table is read up to the
limit, to its end or to its first failure (`Fetcher.sample_run`), so the pass stops
at the first table that fails, and the log tells of the tables up to there
(`Fetcher.mapM_sample_of_fails`).

Key definitions: `Fetcher.failure?`, `Fetcher.pulled`, `sampledTables`.
Key theorem: **`discovery_reads_no_more`**.
-/
import KeyedRows.Proofs.Firsts
import KeyedRows.Schema.Discovery

namespace KeyedRows.Discovery

/-! ### One table -/

/-- The failure that an event is, if it is one. -/
def failureOf : Event → Option Error
  | .error e => some e
  | .ok _ => none

/-- The bins of an event that is a record. -/
def binsOf (event : Event) : Option Bins := event.toOption.map (·.bins)

/-- Records are no failures. -/
theorem findSome?_records (rs : List Record) : (rs.map .ok).findSome? failureOf = none :=
  List.findSome?_eq_none_iff.mpr (List.forall_mem_map.mpr fun _ _ => rfl)

theorem filterMap_records (rs : List Record) :
    (rs.map .ok).filterMap binsOf = rs.map (·.bins) := by
  rw [List.filterMap_map]
  exact congrFun List.filterMap_eq_map' rs

namespace Fetcher

variable (f : Fetcher) (limit : ℕ)

/-- The failure that ends the sample of a table, if any: it cannot be opened, or
one of its records up to the limit fails. -/
def failure? (table : SetAddress) : Option Error :=
  match f table with
  | .error e => some e
  | .ok events => (events.take limit).findSome? failureOf

/-- How many events the sample of a table takes: up to the limit, to the end or to
the first failure, whichever comes first. -/
def pulled (table : SetAddress) : ℕ :=
  match f table with
  | .error _ => 0
  | .ok events =>
    min limit (min events.length (events.findIdx (fun event => (failureOf event).isSome) + 1))

/-- The bins of the records of a table up to the limit. -/
def binsUpTo (table : SetAddress) : List Bins :=
  match f table with
  | .error _ => []
  | .ok events => (events.take limit).filterMap binsOf

/-- What the log tells of a table that was fetched. -/
def fetched (table : SetAddress) : SetAddress × ℕ := (table, f.pulled limit table)

end Fetcher

theorem takeSample_eq : ∀ (limit : ℕ) (events : List Event), takeSample limit events =
    (match (events.take limit).findSome? failureOf with
      | some e => .error e
      | none => .ok ((events.take limit).filterMap binsOf),
      min limit (min events.length (events.findIdx (fun event => (failureOf event).isSome) + 1)))
  | 0, events => by simp [takeSample]
  | limit + 1, [] => rfl
  | limit + 1, .error e :: rest => by
    have hfailure : failureOf (.error e) = some e := rfl
    rw [takeSample, List.take_succ_cons, List.findSome?_cons, List.findIdx_cons, hfailure]
    simp
  | limit + 1, .ok r :: rest => by
    have ih := takeSample_eq limit rest
    have hfailure : failureOf (.ok r) = none := rfl
    rw [takeSample, ih, List.take_succ_cons, List.findSome?_cons, List.findIdx_cons, hfailure]
    refine Prod.ext ?_ ?_
    · cases (rest.take limit).findSome? failureOf <;> rfl
    · simp only [Option.isSome_none, cond_false, List.length_cons]
      omega

namespace Fetcher

variable (f : Fetcher) (limit : ℕ)

/-- **One sample** fails or gives the bins up to the limit, and logs one table. -/
theorem sample_run (table : SetAddress) (log : FetchLog) : f.sample limit table log =
    match f.failure? limit table with
    | some e => .error e (log ++ [f.fetched limit table])
    | none => .ok (f.binsUpTo limit table) (log ++ [f.fetched limit table]) := by
  unfold sample failure? binsUpTo fetched pulled
  cases f table with
  | error e => rfl
  | ok events =>
    simp only [takeSample_eq]
    cases (events.take limit).findSome? failureOf <;> rfl

/-! ### One table after the other -/

/-- Either no table fails, or one is the first that does. -/
theorem none_or_first_fails (tables : List SetAddress) :
    (∀ t ∈ tables, f.failure? limit t = none) ∨
      ∃ before table rest e, tables = before ++ table :: rest ∧
        (∀ t ∈ before, f.failure? limit t = none) ∧ f.failure? limit table = some e := by
  cases hfirst : tables.findSome? (f.failure? limit) with
  | none => exact .inl (List.findSome?_eq_none_iff.mp hfirst)
  | some e =>
    obtain ⟨before, table, rest, htables, htable, hbefore⟩ := List.findSome?_eq_some_iff.mp hfirst
    exact .inr ⟨before, table, rest, e, htables, hbefore, htable⟩

variable {f limit}

theorem sample_of_fails {table : SetAddress} {e : Error} (h : f.failure? limit table = some e)
    (log : FetchLog) : f.sample limit table log = .error e (log ++ [f.fetched limit table]) := by
  rw [sample_run, h]

theorem sample_of_none {table : SetAddress} (h : f.failure? limit table = none) (log : FetchLog) :
    f.sample limit table log =
      .ok (f.binsUpTo limit table) (log ++ [f.fetched limit table]) := by
  rw [sample_run, h]

/-- If no table fails, all are sampled. -/
theorem mapM_sample_of_none : ∀ {tables : List SetAddress},
    (∀ t ∈ tables, f.failure? limit t = none) → ∀ log : FetchLog,
      (tables.mapM fun t => (t, ·) <$> f.sample limit t) log =
        .ok (tables.map fun t => (t, f.binsUpTo limit t)) (log ++ tables.map (f.fetched limit))
  | [], _, log => by simp [pure, EStateM.pure]
  | t :: tables, h, log => by
    rw [List.forall_mem_cons] at h
    have ih := mapM_sample_of_none h.2 (log ++ [f.fetched limit t])
    simp only [Functor.map] at ih
    simp only [List.mapM_cons, bind, EStateM.bind, Functor.map, EStateM.map,
      sample_of_none h.1, ih]
    simp [pure, EStateM.pure]

/-- The first table that fails is the last one sampled. -/
theorem mapM_sample_of_fails {table : SetAddress} {e : Error}
    (htable : f.failure? limit table = some e) (rest : List SetAddress) :
    ∀ {before : List SetAddress}, (∀ t ∈ before, f.failure? limit t = none) → ∀ log : FetchLog,
      ((before ++ table :: rest).mapM fun t => (t, ·) <$> f.sample limit t) log =
        .error e (log ++ (before ++ [table]).map (f.fetched limit))
  | [], _, log => by
    simp only [List.nil_append, List.mapM_cons, bind, EStateM.bind, Functor.map, EStateM.map,
      sample_of_fails htable]
    rfl
  | t :: before, h, log => by
    rw [List.forall_mem_cons] at h
    have ih := mapM_sample_of_fails htable rest h.2 (log ++ [f.fetched limit t])
    simp only [Functor.map] at ih
    simp only [List.cons_append, List.mapM_cons, bind, EStateM.bind, Functor.map, EStateM.map,
      sample_of_none h.1, ih]
    simp

end Fetcher

/-! ### Gathering -/

/-- The tables that columns need samples of, in the order of their first such
columns. -/
def sampledTables (columns : List Column) : List SetAddress :=
  ((columns.filter Column.needsSample).map tableOf).eraseDups

theorem lookup_eq_none {samples : Samples} {table : SetAddress} :
    samples.lookup table = none ↔ table ∉ samples.map Prod.fst := by
  rw [List.lookup_eq_none_iff, List.mem_map, not_exists]
  refine forall_congr' fun entry => ?_
  rw [bne_iff_ne, not_and, ne_comm]

/-- **Gathering samples the tables that there is no sample of, each once.** -/
theorem gather_eq {σ : Type} (sample : SetAddress → EStateM Error σ (List Bins)) :
    ∀ (columns : List Column) (samples : Samples), gather sample columns samples =
      (samples ++ ·) <$> ((columns.map tableOf).filter fun t =>
        !(samples.map Prod.fst).contains t).eraseDups.mapM fun t => (t, ·) <$> sample t
  | [], samples => by simp [gather]
  | c :: cs, samples => by
    unfold gather
    cases hfound : samples.lookup (tableOf c) with
    | some bins =>
      have hmem : tableOf c ∈ samples.map Prod.fst := by
        by_contra hout
        rw [lookup_eq_none.mpr hout] at hfound
        cases hfound
      rw [List.map_cons, List.filter_cons_of_neg (by simpa using hmem)]
      exact gather_eq sample cs samples
    | none =>
      have hout : tableOf c ∉ samples.map Prod.fst := lookup_eq_none.mp hfound
      have hrest : ∀ bins, ((cs.map tableOf).filter fun t =>
          !((samples ++ [(tableOf c, bins)]).map Prod.fst).contains t) =
          ((cs.map tableOf).filter fun t => !(samples.map Prod.fst).contains t).filter
            fun t => !t == tableOf c := fun bins => by
        rw [List.filter_filter]
        refine List.filter_congr fun t _ => Bool.eq_iff_iff.mpr ?_
        simp [and_comm]
      rw [List.map_cons, List.filter_cons_of_pos (by simpa using hout), List.eraseDups_cons,
        List.mapM_cons]
      simp only [gather_eq sample cs, hrest, map_eq_pure_bind, bind_assoc, pure_bind,
        List.append_assoc, List.singleton_append]

/-- Only the samples of columns that need one are looked at. -/
theorem resolve_congr {columns : List Column} {samplesOf samplesOf' : Column → List Bins}
    (h : ∀ c ∈ columns, c.needsSample = true → samplesOf c = samplesOf' c)
    (reserved : List String) :
    resolve columns samplesOf reserved = resolve columns samplesOf' reserved := by
  refine List.flatMap_congr fun c hc => ?_
  unfold resolveColumn
  cases hneeds : c.needsSample with
  | false => rfl
  | true => rw [h c hc hneeds]

/-- Columns that need no sample are left as they are. -/
theorem resolve_of_not_needsSample {columns : List Column} {samplesOf : Column → List Bins}
    {reserved : List String} (h : ∀ c ∈ columns, c.needsSample = false) :
    resolve columns samplesOf reserved = columns := by
  have halone : ∀ c ∈ columns, resolveColumn columns samplesOf reserved c = [c] := fun c hc => by
    simp [resolveColumn, h c hc]
  rw [resolve, List.flatMap_congr halone, List.flatMap_singleton']

theorem lookup_map {g : SetAddress → List Bins} {table : SetAddress} :
    ∀ {tables : List SetAddress}, table ∈ tables →
      (tables.map fun t => (t, g t)).lookup table = some (g table)
  | [], h => by simp at h
  | t :: tables, h => by
    rw [List.map_cons, List.lookup_cons]
    by_cases ht : table = t
    · rw [ht, beq_self_eq_true]
    · rw [beq_false_of_ne ht]
      exact lookup_map ((List.mem_cons.mp h).resolve_left ht)

theorem mem_sampledTables {columns : List Column} {c : Column} (hc : c ∈ columns)
    (hneeds : c.needsSample = true) : tableOf c ∈ sampledTables columns :=
  List.mem_eraseDups.mpr (List.mem_map_of_mem (List.mem_filter.mpr ⟨hc, hneeds⟩))

variable {f : Fetcher} {limit : ℕ} {columns : List Column}

theorem gather_sampledTables {σ : Type} (sample : SetAddress → EStateM Error σ (List Bins)) :
    gather sample (columns.filter Column.needsSample) [] =
      (sampledTables columns).mapM fun t => (t, ·) <$> sample t := by
  simp [gather_eq, sampledTables]

/-- Discovery fails with the first table that does, and asks for none after it. -/
theorem discover_of_fails {before rest : List SetAddress} {table : SetAddress} {e : Error}
    (htables : sampledTables columns = before ++ table :: rest)
    (hbefore : ∀ t ∈ before, f.failure? limit t = none)
    (htable : f.failure? limit table = some e) (log : FetchLog) :
    discover (f.sample limit) columns log =
      .error e (log ++ (before ++ [table]).map (f.fetched limit)) := by
  simp only [discover, gather_sampledTables, htables, bind, EStateM.bind,
    Fetcher.mapM_sample_of_fails htable rest hbefore]

/-- Discovery resolves the columns against the samples that it gathers. -/
theorem discover_of_sampled {σ : Type} {sample : SetAddress → EStateM Error σ (List Bins)}
    {g : SetAddress → List Bins} {s after : σ}
    (h : ((sampledTables columns).mapM fun t => (t, ·) <$> sample t) s =
      .ok ((sampledTables columns).map fun t => (t, g t)) after) :
    discover sample columns s = .ok (resolve columns (fun c => g (tableOf c)) []) after := by
  simp only [discover, gather_sampledTables, bind, EStateM.bind, h]
  split_ifs with hnone
  · have htables : sampledTables columns = [] := by simpa using hnone
    have hneeds : ∀ c ∈ columns, c.needsSample = false := fun c hc => by
      cases hneeds : c.needsSample with
      | false => rfl
      | true => exact absurd (htables ▸ mem_sampledTables hc hneeds) List.not_mem_nil
    rw [resolve_of_not_needsSample hneeds]
    rfl
  · refine congrArg (EStateM.Result.ok · _) (resolve_congr (fun c hc hneeds => ?_) [])
    rw [lookup_map (mem_sampledTables hc hneeds)]
    rfl

/-- Discovery resolves the columns if no table fails. -/
theorem discover_of_none (h : ∀ t ∈ sampledTables columns, f.failure? limit t = none)
    (log : FetchLog) :
    discover (f.sample limit) columns log =
      .ok (resolve columns (fun c => f.binsUpTo limit (tableOf c)) [])
        (log ++ (sampledTables columns).map (f.fetched limit)) :=
  discover_of_sampled (Fetcher.mapM_sample_of_none h log)

/-- Where discovery succeeds no table failed, and the columns were resolved. -/
theorem of_discovered {log after : FetchLog} {resolved : List Column}
    (h : discover (f.sample limit) columns log = .ok resolved after) :
    (∀ t ∈ sampledTables columns, f.failure? limit t = none) ∧
      resolved = resolve columns (fun c => f.binsUpTo limit (tableOf c)) [] := by
  rcases f.none_or_first_fails limit (sampledTables columns) with
      hnone | ⟨before, table, rest, e, htables, hbefore, htable⟩
  · rw [discover_of_none hnone] at h
    cases h
    exact ⟨hnone, rfl⟩
  · rw [discover_of_fails htables hbefore htable] at h
    cases h

/-- **Discovery reads no more than it must.** It fetches the tables of the columns
that are wildcards or have no declared type, each once, in the order of their first
such columns. It fails with the failure of the first table that has one, and then has
fetched that table last; it succeeds exactly if no table has one, and then has fetched
all of them. From each table that it fetches it takes the events up to the limit, to
the end or to the first failure, whichever comes first. -/
theorem discovery_reads_no_more (f : Fetcher) (limit : ℕ) (columns : List Column)
    (log : FetchLog) :
    let tables :=
      ((columns.filter fun c => c.isWildcard || !c.hasDeclaredType).map tableOf).eraseDups
    tables.Nodup ∧
    (∀ e after, discover (f.sample limit) columns log = .error e after ↔
      ∃ before table rest, tables = before ++ table :: rest ∧
        (∀ t ∈ before, f.failure? limit t = none) ∧ f.failure? limit table = some e ∧
        after = log ++ (before ++ [table]).map fun t => (t, f.pulled limit t)) ∧
    (∀ after, (∃ resolved, discover (f.sample limit) columns log = .ok resolved after) ↔
      (∀ t ∈ tables, f.failure? limit t = none) ∧
        after = log ++ tables.map fun t => (t, f.pulled limit t)) := by
  intro tables
  have hcases := f.none_or_first_fails limit tables
  refine ⟨nodup_eraseDups _, fun e after => ⟨fun hrun => ?_, ?_⟩, fun after => ⟨?_, ?_⟩⟩
  · rcases hcases with hnone | ⟨before, table, rest, e', htables, hbefore, htable⟩
    · rw [discover_of_none hnone] at hrun
      cases hrun
    · rw [discover_of_fails htables hbefore htable] at hrun
      cases hrun
      exact ⟨before, table, rest, htables, hbefore, htable, rfl⟩
  · rintro ⟨before, table, rest, htables, hbefore, htable, rfl⟩
    exact discover_of_fails htables hbefore htable log
  · rintro ⟨resolved, hrun⟩
    rcases hcases with hnone | ⟨before, table, rest, e, htables, hbefore, htable⟩
    · rw [discover_of_none hnone] at hrun
      cases hrun
      exact ⟨hnone, rfl⟩
    · rw [discover_of_fails htables hbefore htable] at hrun
      cases hrun
  · rintro ⟨hnone, rfl⟩
    exact ⟨_, discover_of_none hnone log⟩

/-- The second table fails at its second record: the third record is left in it, and
the third table is not opened. -/
example :
    let row : Event := .ok ⟨none, .ofList [("n", .int64 1)]⟩
    let f : Fetcher := fun t =>
      .ok (if t.name = "pets" then [row, .error (.io "lost"), row] else [row])
    let all (table : String) : Column := { name := "*", schema := "test", table }
    discover (f.sample 3) [all "people", all "pets", all "people", all "towns"] [] =
      .error (.io "lost") [(⟨"test", "people"⟩, 1), (⟨"test", "pets"⟩, 2)] := by
  rfl

end KeyedRows.Discovery
