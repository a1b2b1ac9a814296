/-
# Filters

What an index of the store can decide about one bin: that it equals an
integer or a text, or that it is an integer in a range with both ends.

Key definitions: `Filter`, `Filter.accepts`.
-/
import KeyedRows.Record

namespace KeyedRows

/-- What a bin can be compared with. -/
inductive Operand where
  | int (n : Int64)
  | text (s : String)
deriving DecidableEq, Inhabited

def Operand.shown : Operand → String
  | .int n => String.ofList (integerText n.toInt)
  | .text s => s!"'{s}'"

inductive Filter where
  | equals (bin : String) (operand : Operand)
  | within (bin : String) (low high : Int64)
deriving DecidableEq, Inhabited

namespace Filter

/-- The bin that the filter looks at. -/
def bin : Filter → String
  | equals bin _ => bin
  | within bin _ _ => bin

/-- The value satisfies the filter. Integers of every width are compared by
value; a text only equals a text. -/
def acceptsValue : Filter → Value → Bool
  | equals _ (.text s), .text t => s == t
  | equals _ (.text _), _ => false
  | equals _ (.int n), v => v.toInt64? == some n
  | within _ low high, v =>
    match v.toInt64? with
    | some n => low ≤ n && n ≤ high
    | none => false

/-- The record has the bin, and its value satisfies the filter. -/
def accepts (f : Filter) (bins : Bins) : Bool :=
  match bins.find? f.bin with
  | some v => f.acceptsValue v
  | none => false

def shown : Filter → String
  | equals bin operand => s!"{bin} = {operand.shown}"
  | within bin low high =>
    s!"{bin} BETWEEN {(Operand.int low).shown} AND {(Operand.int high).shown}"

end Filter
end KeyedRows
