/-
# SQL types

The types that columns announce, with their standard codes and names.

Key definitions: `SqlType`, `code`, `name`, `ofCode?`, `ofValue`.
-/
import KeyedRows.Value.Basic

namespace KeyedRows

inductive SqlType where
  | unknown
  | boolean
  | tinyInt
  | smallInt
  | integer
  | bigInt
  | real
  | double
  | varchar
  | blob
  | date
  | time
  | timestamp
  | array
  | object
deriving DecidableEq, Inhabited

namespace SqlType

def all : List SqlType :=
  [.unknown, .boolean, .tinyInt, .smallInt, .integer, .bigInt, .real, .double, .varchar, .blob,
   .date, .time, .timestamp, .array, .object]

def code : SqlType → Int
  | .unknown => 0
  | .boolean => 16
  | .tinyInt => -6
  | .smallInt => 5
  | .integer => 4
  | .bigInt => -5
  | .real => 7
  | .double => 8
  | .varchar => 12
  | .blob => 2004
  | .date => 91
  | .time => 92
  | .timestamp => 93
  | .array => 2003
  | .object => 2000

def name : SqlType → String
  | .unknown => "NULL"
  | .boolean => "BOOLEAN"
  | .tinyInt => "TINYINT"
  | .smallInt => "SMALLINT"
  | .integer => "INTEGER"
  | .bigInt => "BIGINT"
  | .real => "REAL"
  | .double => "DOUBLE"
  | .varchar => "VARCHAR"
  | .blob => "BLOB"
  | .date => "DATE"
  | .time => "TIME"
  | .timestamp => "TIMESTAMP"
  | .array => "ARRAY"
  | .object => "OBJECT"

/-- The type with this code. -/
def ofCode? (c : Int) : Option SqlType := all.find? (fun t => t.code == c)

/-- A type that says what the column holds. -/
def isDeclared (t : SqlType) : Bool := t != .unknown

/-- The type of a column that holds values of a kind. -/
def ofKind : Kind → SqlType
  | .null => .unknown
  | .bool => .boolean
  | .int8 => .tinyInt
  | .int16 => .smallInt
  | .int32 => .integer
  | .int64 => .bigInt
  | .float32 => .real
  | .float64 => .double
  | .text => .varchar
  | .bytes => .blob
  | .list => .array
  | .map => .object

def ofValue (v : Value) : SqlType := ofKind v.kind

end SqlType
end KeyedRows
