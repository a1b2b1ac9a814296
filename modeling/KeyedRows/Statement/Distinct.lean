/-
# Grouping

The groups of a plan's records as rows. The store groups the records of a
query with one filter at most; the record of a look-up is grouped here. A
test may filter the groups.

Key definitions: `Distinct`, `Distinct.groups`, `Distinct.openRows`,
`Distinct.run`.
-/
import KeyedRows.Cursor.Any
import KeyedRows.Plan.Basic
import KeyedRows.Statement.Source

namespace KeyedRows

structure Distinct where
  settings : Settings
  plan : QueryPlan
  columns : List Column
  aggregation : Aggregation
  having : Option RowTest := none
  discovers : Bool := false

namespace Distinct

/-- The groups of the record that the plan looks up. -/
def groupPoint (d : Distinct) : ClientM RecordStream := do
  let (drained, rest) := (← d.plan.execute).drain
  let _ ← Client.closeStream rest
  let records ← ofExcept drained
  return RecordStream.ofRecords (d.aggregation.apply (records.map (·.bins)))

/-- The groups of the plan's records. -/
def groups (d : Distinct) : ClientM RecordStream :=
  match d.plan.access, d.plan.indexQuery? with
  | .point _, _ => d.groupPoint
  | _, some q => Client.queryAggregate q d.aggregation
  | _, none => throw (.unsupported "aggregation without a set")

/-- The set to group, if the plan can be grouped: it is a look-up or has no
residual filter. -/
def check (d : Distinct) : Except Error SetAddress :=
  match d.plan.home?, d.plan.access, d.plan.residual with
  | none, _, _ => .error (.unsupported "aggregation without a set")
  | some home, .point _, _ => .ok home
  | some home, _, [] => .ok home
  | some _, _, _ :: _ =>
    .error (.unsupported "aggregation with predicates beyond one index filter")

/-- The cursor over the groups. -/
def openRows (d : Distinct) : ClientM RecordCursor := do
  let home ← ofExcept d.check
  Statement.openCursor d.settings d.discovers home d.columns d.groups

/-- The groups that the test accepts, or all of them. -/
def run (d : Distinct) : ClientM Cursor := do
  let cursor := Cursor.ofRecord (← d.openRows)
  match d.having with
  | some test => return cursor.filtered test
  | none => return cursor

end Distinct
end KeyedRows
