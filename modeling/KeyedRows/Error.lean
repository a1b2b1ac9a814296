/-
# Errors

Why a call fails, and the message that says so.

Key definitions: `Error`, `Error.message`.
-/
import KeyedRows.Value.Written

namespace KeyedRows

inductive Error where
  | typeMismatch (expected actual : String)
  /-- A value that the column cannot be compared with or keyed by. -/
  | invalidOperand (column value : String)
  | missingPrimaryKey (column : String)
  | duplicateKey (keys : String)
  | unsupported (operation : String)
  | closed (resource : String)
  | columnNotFound (label : String)
  | unknownOperator (symbol : String)
  | storage (text : String)
  /-- A failure of the engine under the store. -/
  | engine (text : String)
  | io (text : String)
  | malformed (text : String)
  | settings (text : String)
deriving DecidableEq, Inhabited

namespace Error

def message : Error → String
  | typeMismatch expected actual => s!"type mismatch: expected {expected}, got {actual}"
  | invalidOperand column value => s!"invalid predicate value for column '{column}': {value}"
  | missingPrimaryKey column => s!"primary key column '{column}' is not specified"
  | duplicateKey keys => s!"duplicate entries: {keys}"
  | unsupported operation => s!"operation not supported: {operation}"
  | closed resource => s!"{resource} is closed"
  | columnNotFound label => s!"column '{label}' does not exist"
  | unknownOperator symbol => s!"unknown operator '{symbol}'"
  | storage text => s!"storage error: {text}"
  | engine text => s!"sled error: {text}"
  | io text => s!"io error: {text}"
  | malformed text => s!"serialization error: {text}"
  | settings text => s!"config error: {text}"

/-- The column takes no such value. -/
def invalidValue (column : String) (v : Value) : Error :=
  .invalidOperand column (String.ofList v.described)

/-- The column takes no value, for the reason given. -/
def invalidReason (column reason : String) : Error :=
  .invalidOperand column (String.ofList (Text.quoted reason.toList))

/-- A value of another kind than the expected one. -/
def wrongKind (expected : String) (v : Value) : Error := .typeMismatch expected v.kind.name

/-- A text that names no value of the expected kind. -/
def wrongText (expected : String) (s : String) : Error :=
  .typeMismatch expected (String.ofList (Value.text s).described)

/-- What a cursor that only moves forward cannot do. -/
def forwardOnly (operation : String) : Error :=
  .unsupported s!"{operation} on a forward-only cursor"

/-- A read that is not on a row. -/
def outsideRow : Error := .unsupported "read outside of a row"

end Error
end KeyedRows
