/-
# Type discovery

Columns that do not say their type, and wildcards, are resolved against
sampled records. A column takes the type of the first value under its name
that is not null. A wildcard becomes a column for every name in the records,
in the order in which the names are first seen, apart from names that other
columns of its table or reserved ones already have.

Each table is sampled once, when the first column needs it, and no further
than a limit.

Key definitions: `firstType`, `expand`, `resolve`, `takeSample`,
`discover`, `Fetcher.sample`, `Client.sample`.
-/
import KeyedRows.Schema.Column
import KeyedRows.Settings.Basic
import KeyedRows.Store.Client

namespace KeyedRows.Discovery

/-- The type of the first value under a name that is not null. -/
def firstType (samples : List Bins) (name : String) : SqlType :=
  match (samples.filterMap (·.find? name)).find? (!·.isNull) with
  | some v => .ofValue v
  | none => .unknown

/-- The names that are not among those seen, each at its first place. -/
def freshNames (seen : List String) : List String → List String
  | [] => []
  | n :: ns => if seen.contains n then freshNames seen ns else n :: freshNames (n :: seen) ns

/-- The names that a wildcard does not stand for: those of the other columns
of its table. -/
def namesBeside (columns : List Column) (wildcard : Column) : List String :=
  (columns.filter fun c =>
    !c.isWildcard && c.schema == wildcard.schema && c.table == wildcard.table).map (·.name)

/-- The columns that a wildcard stands for. -/
def expand (samples : List Bins) (seen : List String) (wildcard : Column) : List Column :=
  (freshNames seen (samples.flatMap (·.keys))).map fun name =>
    { name, type := firstType samples name, schema := wildcard.schema, table := wildcard.table }

/-- What a column of a projection becomes. -/
def resolveColumn (columns : List Column) (samplesOf : Column → List Bins)
    (reserved : List String) (c : Column) : List Column :=
  if !c.needsSample then [c]
  else if !c.isWildcard then [{ c with type := firstType (samplesOf c) c.name }]
  else expand (samplesOf c) (namesBeside columns c ++ reserved) c

/-- The columns with sampled types. No wildcard stands for a reserved name. -/
def resolve (columns : List Column) (samplesOf : Column → List Bins) (reserved : List String) :
    List Column :=
  columns.flatMap (resolveColumn columns samplesOf reserved)

/-! ### Sampling -/

/-- The table of a column. -/
def tableOf (c : Column) : SetAddress := ⟨c.schema, c.table⟩

/-- The bins of the first records of a table, up to a limit or to the first
failure, and how many events were taken. -/
def takeSample : Nat → List Event → Except Error (List Bins) × Nat
  | 0, _ => (.ok [], 0)
  | _ + 1, [] => (.ok [], 0)
  | _ + 1, .error e :: _ => (.error e, 1)
  | limit + 1, .ok r :: rest =>
    let (samples, taken) := takeSample limit rest
    (samples.map (r.bins :: ·), taken + 1)

/-- Samples by table. -/
abbrev Samples := List (SetAddress × List Bins)

/-- The samples of the tables of these columns, each table sampled once. -/
def gather {σ : Type} (sample : SetAddress → EStateM Error σ (List Bins)) :
    List Column → Samples → EStateM Error σ Samples
  | [], samples => pure samples
  | c :: cs, samples =>
    match samples.lookup (tableOf c) with
    | some _ => gather sample cs samples
    | none => do
      let bins ← sample (tableOf c)
      gather sample cs (samples ++ [(tableOf c, bins)])

/-- The columns, resolved against samples of the tables that need one. -/
def discover {σ : Type} (sample : SetAddress → EStateM Error σ (List Bins))
    (columns : List Column) : EStateM Error σ (List Column) := do
  let samples ← gather sample (columns.filter Column.needsSample) []
  if samples.isEmpty then return columns
  return resolve columns (fun c => (samples.lookup (tableOf c)).getD []) []

/-! ### Sources of samples -/

/-- A source that yields the same events whenever a table is opened, or fails
to open it. -/
abbrev Fetcher := SetAddress → Except Error (List Event)

/-- The tables asked for, in order, with the number of events taken from each:
none from a table that cannot be opened. -/
abbrev FetchLog := List (SetAddress × Nat)

/-- A sample of a fetcher's table. -/
def Fetcher.sample (f : Fetcher) (limit : Nat) (table : SetAddress) :
    EStateM Error FetchLog (List Bins) := fun log =>
  match f table with
  | .error e => .error e (log ++ [(table, 0)])
  | .ok events =>
    match takeSample limit events with
    | (.ok samples, taken) => .ok samples (log ++ [(table, taken)])
    | (.error e, taken) => .error e (log ++ [(table, taken)])

end Discovery

/-- A sample of a stored set: its scan is closed once the sample is taken,
also when it fails. -/
def Client.sample (limit : Nat) (table : SetAddress) : ClientM (List Bins) := do
  let stream ← Client.scan table
  let _ ← Client.closeStream stream
  match (Discovery.takeSample limit stream.pending).1 with
  | .ok samples => return samples
  | .error e => throw e

/-- The discovery that settings ask for, over the stored records. -/
def Client.discover (s : Settings) (columns : List Column) : ClientM (List Column) :=
  Discovery.discover (Client.sample s.sampleLimit.toNat) columns

end KeyedRows
