/-
# Groups of records

Records fall into groups by their values under some names, an absent value
counting as null. Two records share a group when the descriptions of their
values are the same text. The groups stand in the order of their first
records.

Key definitions: `Aggregation`, `Group`, `Aggregation.groupsOf`,
`Aggregation.apply`.
-/
import KeyedRows.Record

namespace KeyedRows

/-- The names to group by and, if the groups are to be counted, the name
under which the count is kept. -/
structure Aggregation where
  fields : List String
  countAs : Option String := none
deriving DecidableEq, Inhabited

/-- The values that the records of a group share, their description, and the
number of the records. -/
structure Group where
  values : List Value
  text : List Char
  size : Nat

namespace Aggregation

/-- The values that decide on the group of a record. -/
def tuple (a : Aggregation) (bins : Bins) : List Value := a.fields.map (Bins.read bins)

/-- The groups after one more record. -/
def addTo (values : List Value) (text : List Char) : List Group → List Group
  | [] => [⟨values, text, 1⟩]
  | g :: gs =>
    if g.text = text then { g with size := g.size + 1 } :: gs
    else g :: addTo values text gs

/-- The groups of records, in the order of their first records. -/
def groupsOf (a : Aggregation) (records : List Bins) : List Group :=
  records.foldl (fun gs r => addTo (a.tuple r) (Value.describedList (a.tuple r)) gs) []

/-- What a group yields: its values that are not null under their names, and
its size under the name for it, if one is given. -/
def yielded (a : Aggregation) (g : Group) : Bins :=
  let named := OrderedMap.ofList ((a.fields.zip g.values).filter fun e => !e.2.isNull)
  match a.countAs with
  | some name => named.insert name (.int64 (Int64.ofNat g.size))
  | none => named

/-- One record without a key for each group. -/
def apply (a : Aggregation) (records : List Bins) : List Record :=
  (a.groupsOf records).map fun g => ⟨none, a.yielded g⟩

end Aggregation
end KeyedRows
