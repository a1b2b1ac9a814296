/-
# Stores and their calls

A store answers seven calls, whatever keeps its records. A call is data, and
it decides what its answer looks like.

Key definitions: `IndexQuery`, `Call`, `Call.Result`, `Store`, `Store.answer`,
`Store.after`.
-/
import KeyedRows.Aggregation
import KeyedRows.Store.Memory
import KeyedRows.Store.Trees

namespace KeyedRows

/-- The records of a set that satisfy a filter, or all of them. -/
structure IndexQuery where
  home : SetAddress
  filter : Option Filter := none
deriving DecidableEq, Inhabited

inductive Call where
  | get (key : Key)
  | getBatch (keys : List Key)
  | put (key : Key) (bins : Bins)
  | scan (home : SetAddress)
  | query (query : IndexQuery)
  | queryAggregate (query : IndexQuery) (aggregation : Aggregation)
  | anyRecord (home : SetAddress)
deriving DecidableEq

/-- What a call is answered with. -/
abbrev Call.Result : Call → Type
  | .get _ => Option Bins
  | .getBatch _ => List (Option Bins)
  | .put _ _ => Unit
  | .scan _ => List Record
  | .query _ => List Record
  | .queryAggregate _ _ => List Record
  | .anyRecord _ => Option Record

/-- A store in memory or in byte trees. -/
inductive Store where
  | memory (m : MemoryStore)
  | trees (t : TreeStore)
deriving DecidableEq, Inhabited

namespace Store

def find? : Store → Key → Option Bins
  | memory m, k => m.find? k
  | trees t, k => t.find? k

def put : Store → Key → Bins → Store
  | memory m, k, bins => memory (m.put k bins)
  | trees t, k, bins => trees (t.put k bins)

/-- The records of a set that satisfy a filter, or all of them. -/
def load : Store → SetAddress → Option Filter → Except Error (List Record)
  | memory m, home, filter =>
    .ok ((m.recordsOf home).filter fun r => filter.all (·.accepts r.bins))
  | trees t, home, filter => t.load home filter

def recordsOf (s : Store) (home : SetAddress) : Except Error (List Record) := s.load home none

/-- The first record of a set. -/
def first? : Store → SetAddress → Except Error (Option Record)
  | memory m, home => .ok (m.recordsOf home).head?
  | trees t, home => t.first? home

/-- The answer to a call. -/
def answer (s : Store) : (c : Call) → Except Error c.Result
  | .get k => .ok (s.find? k)
  | .getBatch ks => .ok (ks.map s.find?)
  | .put _ _ => .ok ()
  | .scan home => s.recordsOf home
  | .query q => s.load q.home q.filter
  | .queryAggregate q a => (s.load q.home q.filter).map fun rs => a.apply (rs.map (·.bins))
  | .anyRecord home => s.first? home

/-- The store after a call. -/
def after (s : Store) : Call → Store
  | .put k bins => s.put k bins
  | _ => s

end Store
end KeyedRows
