/-
# What a grouping returns

The groups of a plan are those of the records that a select with this plan
returns, whether the store groups the records of one query or a looked-up
record is grouped here (`Distinct.groups_deliver`). A plan that can be grouped
costs one call; any other is refused before anything is asked
(`Distinct.check_cases`).

Key definition: `QueryPlan.Groupable`.
Key theorem: **`distinct_groups_selected`**.
-/
import KeyedRows.Proofs.Statement.Select
import KeyedRows.Statement.Distinct

namespace KeyedRows

/-- The plan reads a set, and looks up a key in it or leaves no filter behind. -/
def QueryPlan.Groupable (p : QueryPlan) : Prop :=
  p.setName.isSome = true ∧ ((∃ key, p.access = .point key) ∨ p.residual = [])

namespace RecordStream

/-- Draining a stream of records gives all of them. -/
theorem drain_of_events {s : RecordStream} {rs : List Record} (h : s.events = rs.map .ok) :
    s.drain = (.ok rs, { s with pending := [] }) := by
  suffices hgo : ∀ (pending : List Event) (rs : List Record),
      pending.filter (reaches s.filters) = rs.map .ok →
        drain.go s pending = (.ok rs, { s with pending := [] }) from hgo s.pending rs h
  intro pending
  induction pending with
  | nil =>
    intro rs hrs
    have hnil : rs = [] := by simpa using hrs.symm
    rw [hnil, drain.go]
  | cons event rest ih =>
    intro rs hrs
    cases event with
    | error e =>
      rw [List.filter_cons_of_pos rfl] at hrs
      cases rs <;> cases hrs
    | ok r =>
      by_cases hr : passes s.filters r.bins = true
      · have hreaches : reaches s.filters (.ok r) = true := hr
        rw [List.filter_cons_of_pos hreaches] at hrs
        cases rs with
        | nil => cases hrs
        | cons r' rs =>
          rw [List.map_cons, List.cons.injEq, Except.ok.injEq] at hrs
          obtain ⟨rfl, hrest⟩ := hrs
          rw [drain.go, if_pos hr, ih rs hrest]
      · have hreaches : ¬ reaches s.filters (.ok r) = true := hr
        rw [List.filter_cons_of_neg hreaches] at hrs
        rw [drain.go, if_neg hr, ih rs hrs]

end RecordStream

namespace Distinct

variable {d : Distinct} {home : SetAddress} {m : MemoryStore}

/-- Only a plan that can be grouped passes the check. -/
theorem check_cases (d : Distinct) :
    (d.plan.Groupable ∧ ∃ home, d.plan.home? = some home ∧ d.check = .ok home) ∨
      (¬ d.plan.Groupable ∧ ∃ text, d.check = .error (.unsupported text)) := by
  obtain ⟨settings, ⟨space, setName, access, residual⟩, columns, aggregation, having, discovers⟩ := d
  unfold check QueryPlan.Groupable QueryPlan.home?
  cases setName with
  | none => exact .inr ⟨by simp, _, rfl⟩
  | some name =>
    cases access with
    | point key => exact .inl ⟨by simp, _, rfl, rfl⟩
    | fullScan | pushed f =>
      cases residual with
      | nil => exact .inl ⟨by simp, _, rfl, rfl⟩
      | cons f fs => exact .inr ⟨by simp, _, rfl⟩

/-- A looked-up record is grouped here. -/
theorem groupPoint_delivers (hhome : d.plan.home? = some home) {key : Key}
    (hpoint : d.plan.access = .point key) :
    Delivers d.groupPoint m (d.aggregation.apply
      (((m.fetched home d.plan.access).filter fun r => passes d.plan.residual r.bins).map
        (·.bins))) := by
  intro c hc
  have hexec := execute_point hhome hpoint hc
  have hdrain := RecordStream.drain_of_events (RecordStream.events_restrict
    (s := .ofRecords (m.fetched home d.plan.access)) rfl rfl d.plan.residual)
  let rows := (m.fetched home d.plan.access).filter fun r => passes d.plan.residual r.bins
  refine ⟨.ofRecords (d.aggregation.apply (rows.map (·.bins))), .get key, ?_, hc.served _,
    RecordStream.events_of_records rfl rfl⟩
  simp only [groupPoint, bind, EStateM.bind, hexec, hdrain, Client.closeStream]
  rfl

/-- The records of a query are grouped by the store. -/
theorem queryAggregate_delivers (q : IndexQuery) (a : Aggregation) :
    Delivers (Client.queryAggregate q a) m (a.apply ((m.matching q).map (·.bins))) :=
  fun _ hc => ⟨_, .queryAggregate q a, hc.queryAggregate_eq q a, hc.served _,
    RecordStream.events_of_records rfl rfl⟩

/-- **The groups of a plan are those of the records that it fetches and lets
pass.** -/
theorem groups_deliver (hhome : d.plan.home? = some home) (hplan : d.plan.Groupable) :
    Delivers d.groups m (d.aggregation.apply
      (((m.fetched home d.plan.access).filter fun r => passes d.plan.residual r.bins).map
        (·.bins))) := by
  obtain ⟨-, hplan⟩ := hplan
  have hall : ∀ rs : List Record, rs.filter (fun r => passes [] r.bins) = rs := fun rs =>
    List.filter_eq_self.mpr fun _ _ => rfl
  unfold groups
  cases haccess : d.plan.access with
  | point key =>
    have h := groupPoint_delivers (m := m) hhome haccess
    rwa [haccess] at h
  | fullScan =>
    have hnil : d.plan.residual = [] := by simpa [haccess] using hplan
    have hquery : d.plan.indexQuery? = some { home } := by
      simp [QueryPlan.indexQuery?, hhome, haccess]
    rw [hquery, hnil, hall]
    exact queryAggregate_delivers { home } d.aggregation
  | pushed f =>
    have hnil : d.plan.residual = [] := by simpa [haccess] using hplan
    have hquery : d.plan.indexQuery? = some { home, filter := some f } := by
      simp [QueryPlan.indexQuery?, hhome, haccess]
    rw [hquery, hnil, hall]
    exact queryAggregate_delivers { home, filter := some f } d.aggregation

end Distinct

/-- **A plan is grouped exactly if it reads a set by a look-up or leaves no
filter behind**, and then its groups are those of the records that a select with
this plan returns, in their order. Without discovery this costs one call. Any
other plan is refused before anything is asked. -/
theorem distinct_groups_selected (settings : Settings) (plan : QueryPlan) (columns : List Column)
    (aggregation : Aggregation) (discovers : Bool) (m : MemoryStore) (cl : Client)
    (hm : cl.Serves m) :
    let d : Distinct := { settings, plan, columns, aggregation, discovers }
    let s : Select := { settings, plan, columns, discovers }
    let values := RecordCursor.reading columns settings
    (plan.Groupable → ∃ stream executed rows selecting grouping,
      plan.execute cl = .ok stream executed ∧ stream.events = rows.map .ok ∧
      Yields s.run values cl rows selecting ∧
      Yields d.run values cl (aggregation.apply (rows.map (·.bins))) grouping ∧
      (discovers = false → ∃ k, grouping.log = cl.log ++ [LoggedCall.mk k true])) ∧
    (¬ plan.Groupable → ∃ text, d.run cl = .error (.unsupported text) cl) := by
  intro d s values
  rcases d.check_cases with ⟨hplan, home, hhome, hcheck⟩ | ⟨hplan, text, hcheck⟩
  · refine ⟨fun _ => ?_, fun hno => absurd hplan hno⟩
    have hselect : s.run = Cursor.ofRecord <$>
        Statement.openCursor settings discovers home columns plan.execute := by
      have hhome' : s.plan.home? = some home := hhome
      simp only [Select.run, hhome']
      rfl
    have hgroup : d.run cl = (Cursor.ofRecord <$>
        Statement.openCursor settings discovers home columns d.groups) cl := by
      simp only [Distinct.run, Distinct.openRows, hcheck, bind, EStateM.bind, Functor.map,
        EStateM.map]
      rfl
    obtain ⟨stream, k, hexec, -, hevents⟩ := execute_delivers hhome m cl hm
    obtain ⟨selecting, hrows, -⟩ :=
      openCursor_yields settings discovers home columns (execute_delivers hhome m) hm
    obtain ⟨grouping, hgroups, -, hcall⟩ :=
      openCursor_yields settings discovers home columns (d.groups_deliver hhome hplan) hm
    refine ⟨stream, _, _, selecting, grouping, hexec, hevents, hselect ▸ hrows, ?_, fun hno => ?_⟩
    · obtain ⟨cursor, last, hrun, hvisits⟩ := hgroups
      exact ⟨cursor, last, hgroup.trans hrun, hvisits⟩
    · obtain ⟨k, rfl⟩ := hcall hno
      exact ⟨k, rfl⟩
  · refine ⟨fun hyes => absurd hyes hplan, fun _ => ⟨text, ?_⟩⟩
    simp only [Distinct.run, Distinct.openRows, hcheck, bind, EStateM.bind]
    rfl

/-- A looked-up record is grouped behind a filter that a plan pushed at first;
the filter alone, kept behind another, is refused. -/
theorem distinct_groups_of_demoted_filter :
    let home : SetAddress := ⟨"test", "people"⟩
    let filtered := (QueryPlan.start "test" (some "people")).withFilter (.within "year" 1980 2000)
    let plan := filtered.withPoint ⟨home, .int 1⟩
    let refused := filtered.withFilter (.equals "city" (.text "rome"))
    let aggregation : Aggregation := { fields := ["city"], countAs := some "size" }
    let m := MemoryStore.put {} ⟨home, .int 1⟩
      (.ofList [("city", .text "rome"), ("year", .int64 1995)])
    let cl : Client := { store := .memory m }
    let values := RecordCursor.reading [] {}
    cl.Serves m ∧
      (∃ stream executed rows selecting grouping,
        plan.execute cl = .ok stream executed ∧ stream.events = rows.map .ok ∧
        Yields (Select.run { settings := {}, plan, columns := [] }) values cl rows selecting ∧
        Yields (Distinct.run { settings := {}, plan, columns := [], aggregation }) values cl
          (aggregation.apply (rows.map (·.bins))) grouping ∧
        ∃ k, grouping.log = cl.log ++ [LoggedCall.mk k true]) ∧
      ∃ text, Distinct.run { settings := {}, plan := refused, columns := [], aggregation } cl =
        .error (.unsupported text) cl := by
  intro home filtered plan refused aggregation m cl values
  have hm : cl.Serves m := ⟨rfl, rfl⟩
  have hplan : plan.Groupable := ⟨rfl, .inl ⟨_, rfl⟩⟩
  have hrefused : ¬ refused.Groupable := by
    rintro ⟨-, ⟨key, hkey⟩ | hresidual⟩
    · cases hkey
    · cases hresidual
  obtain ⟨stream, executed, rows, selecting, grouping, hexec, hevents, hselect, hgroup, hcall⟩ :=
    (distinct_groups_selected {} plan [] aggregation false m cl hm).1 hplan
  exact ⟨hm, ⟨stream, executed, rows, selecting, grouping, hexec, hevents, hselect, hgroup,
    hcall rfl⟩, (distinct_groups_selected {} refused [] aggregation false m cl hm).2 hrefused⟩

end KeyedRows
