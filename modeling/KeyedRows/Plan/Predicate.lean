/-
# Predicates

One comparison of a WHERE clause: a column, an operator and its operands.
The symbols of operators are kept in upper case.

Key definitions: `Operator`, `Predicate`, `Predicate.operand`.
-/
import KeyedRows.Error

namespace KeyedRows

/-- The operators that need no registration. -/
inductive Operator where
  | equal
  | greater
  | less
  | between
deriving DecidableEq

def Operator.symbol : Operator → String
  | .equal => "="
  | .greater => ">"
  | .less => "<"
  | .between => "BETWEEN"

structure Predicate where
  column : String
  operator : String
  values : List Value

namespace Predicate

/-- A comparison by a symbol in any letter case. -/
def ofSymbol (column symbol : String) (values : List Value) : Predicate :=
  ⟨column, symbol.toUpper, values⟩

/-- A comparison by one of the built-in operators. -/
def ofOperator (o : Operator) (column : String) (values : List Value) : Predicate :=
  ⟨column, o.symbol, values⟩

def equal (column : String) (v : Value) : Predicate := ofOperator .equal column [v]

def greater (column : String) (v : Value) : Predicate := ofOperator .greater column [v]

def less (column : String) (v : Value) : Predicate := ofOperator .less column [v]

def between (column : String) (low high : Value) : Predicate :=
  ofOperator .between column [low, high]

/-- The operand at an index. -/
def operand (p : Predicate) (i : Nat) : Except Error Value :=
  match p.values[i]? with
  | some v => .ok v
  | none => .error (.invalidReason p.column s!"missing operand #{i}")

/-- The operand at an index as an integer. -/
def integer (p : Predicate) (i : Nat) : Except Error Int64 := do
  let v ← p.operand i
  match v.truncated? with
  | some n => .ok n
  | none => .error (.invalidValue p.column v)

end Predicate
end KeyedRows
