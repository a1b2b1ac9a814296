/-
# Records

A record holds named values, its bins. Records of a set have a key; those
that a grouping makes have none.

Key definitions: `Bins`, `Bins.read`, `Bins.merge`, `Record`.
-/
import KeyedRows.Key.Basic
import KeyedRows.OrderedMap

namespace KeyedRows

/-- Values by name, in the order of the names. -/
abbrev Bins := OrderedMap String Value

namespace Bins

/-- The value under a name; an absent one counts as null. -/
def read (bins : Bins) (name : String) : Value := (bins.find? name).getD .null

/-- One written bin: a null removes the name, any other value is kept in its
normal form. -/
def write (stored : Bins) (name : String) (v : Value) : Bins :=
  if v.isNull then stored.erase name else stored.insert name v.normalized

/-- The stored bins after a write of new ones. -/
def merge (stored new : Bins) : Bins :=
  new.entries.foldl (fun m e => write m e.1 e.2) stored

end Bins

structure Record where
  key : Option Key
  bins : Bins
deriving DecidableEq, Inhabited

end KeyedRows
