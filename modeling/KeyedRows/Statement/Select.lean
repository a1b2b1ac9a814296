/-
# Selecting

The records of a plan as rows. A statement without a set has one row without
columns and reads nothing.

Key definitions: `Select`, `Select.prepare`, `Select.run`.
-/
import KeyedRows.Cursor.Any
import KeyedRows.Plan.Operators
import KeyedRows.Statement.Source

namespace KeyedRows

structure Select where
  settings : Settings
  plan : QueryPlan
  columns : List Column
  discovers : Bool := false

namespace Select

/-- The statement over a set with predicates by the built-in operators. -/
def prepare (settings : Settings) (setName : Option String) (columns : List Column)
    (predicates : List Predicate) : Except Error Select := do
  let plan ← QueryPlan.ofPredicates (.builtIn settings.keyColumn) settings.space setName predicates
  return { settings, plan, columns }

/-- The cursor over the records of the plan in its set. -/
def openRows (s : Select) (home : SetAddress) : ClientM RecordCursor :=
  Statement.openCursor s.settings s.discovers home s.columns s.plan.execute

/-- The rows of the statement. -/
def run (s : Select) : ClientM Cursor :=
  match s.plan.home? with
  | none => return .ofStatic .constant
  | some home => Cursor.ofRecord <$> s.openRows home

end Select
end KeyedRows
