/-
# Plans

A plan names the one call that serves a statement: a look-up of a key, a
query with one filter, or a scan. Filters that the call does not carry stay
behind and are checked on the stream.

Key definitions: `Access`, `QueryPlan`, `withFilter`, `withPoint`,
`indexQuery?`, `execute`.
-/
import KeyedRows.Store.Client

namespace KeyedRows

/-- The call that fetches the records. -/
inductive Access where
  | fullScan
  | point (key : Key)
  | pushed (filter : Filter)
deriving DecidableEq, Inhabited

/-- A plan without a set is one of a statement that reads no records. -/
structure QueryPlan where
  space : String
  setName : Option String
  access : Access := .fullScan
  residual : List Filter := []
deriving DecidableEq, Inhabited

namespace QueryPlan

/-- The plan that no predicate has shaped yet. -/
def start (space : String) (setName : Option String) : QueryPlan := { space, setName }

def isConstant (p : QueryPlan) : Bool := p.setName.isNone

/-- The set that the plan reads. -/
def home? (p : QueryPlan) : Option SetAddress := p.setName.map fun n => ⟨p.space, n⟩

/-- A key in the plan's set. -/
def key (p : QueryPlan) (user : UserKey) : Key := ⟨⟨p.space, p.setName.getD ""⟩, user⟩

/-- The plan looks up this key; a filter that was pushed stays behind. -/
def withPoint (p : QueryPlan) (key : Key) : QueryPlan :=
  match p.access with
  | .pushed f => { p with access := .point key, residual := p.residual ++ [f] }
  | _ => { p with access := .point key }

/-- The first filter of a scan is pushed to the store, any other stays behind. -/
def withFilter (p : QueryPlan) (f : Filter) : QueryPlan :=
  match p.access with
  | .fullScan => { p with access := .pushed f }
  | _ => { p with residual := p.residual ++ [f] }

/-- The query of the plan's set with the pushed filter, if there is one. -/
def indexQuery? (p : QueryPlan) : Option IndexQuery :=
  p.home?.map fun home =>
    match p.access with
    | .pushed f => { home, filter := f }
    | _ => { home }

/-- The call of the plan. A look-up gives a stream of one record or none,
under the key that was asked for. -/
def fetch (p : QueryPlan) (home : SetAddress) : ClientM RecordStream :=
  match p.access with
  | .point key => do
    let found ← Client.get key
    return RecordStream.ofRecords (found.toList.map fun bins => ⟨some key, bins⟩)
  | .pushed f => Client.query { home, filter := f }
  | .fullScan => Client.scan home

/-- The records of the plan, its residual filters before the reader. -/
def execute (p : QueryPlan) : ClientM RecordStream :=
  match p.home? with
  | none => throw (.unsupported "storage access for a constant query")
  | some home => do return (← p.fetch home).restrict p.residual

end QueryPlan
end KeyedRows
