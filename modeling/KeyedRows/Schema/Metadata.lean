/-
# Metadata of a result

The columns of a result, as a reader sees them. Indices count the columns
that are not hidden.

Key definitions: `ResultMetadata`, `visible`, `columnAt`, `findColumn`,
`schemaName`.
-/
import KeyedRows.Error
import KeyedRows.Schema.Column

namespace KeyedRows

/-- A result without columns still says which table it came from. -/
structure ResultMetadata where
  schema : Option String := none
  table : Option String := none
  columns : List Column := []
  discovered : Bool := false
deriving DecidableEq, Inhabited

namespace ResultMetadata

def ofColumns (columns : List Column) : ResultMetadata := { columns }

/-- No columns, of this table. -/
def ofTable (schema table : String) : ResultMetadata := { schema, table }

/-- The columns were inferred from records. -/
def asDiscovered (m : ResultMetadata) : ResultMetadata := { m with discovered := true }

def visible (m : ResultMetadata) : List Column := m.columns.filter (!·.isHidden)

def columnCount (m : ResultMetadata) : Nat := m.visible.length

def labels (m : ResultMetadata) : List String := m.visible.map Column.displayLabel

/-- The visible column at an index. -/
def columnAt (m : ResultMetadata) (i : Nat) : Except Error Column :=
  match m.visible[i]? with
  | some c => .ok c
  | none => .error (.columnNotFound s!"#{i}")

def columnLabel (m : ResultMetadata) (i : Nat) : Except Error String :=
  (m.columnAt i).map Column.displayLabel

def columnName (m : ResultMetadata) (i : Nat) : Except Error String :=
  (m.columnAt i).map Column.displayName

def columnType (m : ResultMetadata) (i : Nat) : Except Error SqlType :=
  (m.columnAt i).map Column.type

/-- The schema of a visible column, or of a result without columns. -/
def schemaName (m : ResultMetadata) (i : Nat) : Except Error String :=
  if m.columns.isEmpty then .ok (m.schema.getD "") else (m.columnAt i).map Column.schema

/-- The table of a visible column, or of a result without columns. -/
def tableName (m : ResultMetadata) (i : Nat) : Except Error String :=
  if m.columns.isEmpty then .ok (m.table.getD "") else (m.columnAt i).map Column.table

/-- The index of the first visible column with this label or name. -/
def findColumn (m : ResultMetadata) (label : String) : Except Error Nat :=
  match m.visible.findIdx? (fun c => c.displayLabel == label || c.name == label) with
  | some i => .ok i
  | none => .error (.columnNotFound label)

/-- The first column of this name, hidden ones included. -/
def column? (m : ResultMetadata) (name : String) : Option Column :=
  m.columns.find? (·.name == name)

end ResultMetadata
end KeyedRows
