/-
# Columns

What a statement projects: a stored field, a pseudo-field of the key, a field
that is fetched and not shown, an expression, or every field at once.

Key definitions: `Column`, `displayLabel`, `displayName`, `isWildcard`,
`needsSample`.
-/
import KeyedRows.Schema.SqlType

namespace KeyedRows

inductive ColumnRole where
  | data
  | primaryKey
  | hidden
  | expression
deriving DecidableEq, Inhabited

structure Column where
  name : String
  label : Option String := none
  role : ColumnRole := .data
  type : SqlType := .unknown
  schema : String
  table : String
  expression : Option String := none
deriving DecidableEq, Inhabited

namespace Column

/-- The name that stands for every field. -/
def wildcardName : String := "*"

def isWildcard (c : Column) : Bool := c.name == wildcardName

def isHidden (c : Column) : Bool := c.role == .hidden

def hasDeclaredType (c : Column) : Bool := c.type.isDeclared

/-- The column says too little about itself: which fields, or of what type. -/
def needsSample (c : Column) : Bool := c.isWildcard || !c.hasDeclaredType

/-- What readers call the column. -/
def displayLabel (c : Column) : String := c.label.getD c.name

/-- What the column shows: the text of an expression, otherwise its name. -/
def displayName (c : Column) : String :=
  match c.role, c.expression with
  | .expression, some e => e
  | _, _ => c.name

end Column
end KeyedRows
