/-
# Cursors over a stream of records

The rows are the records of a stream. Metadata is made when it is first asked
for: if a column says too little about itself, one record is sampled, namely
the current one, or the next one, which is kept for the next move, or any
record of the set.

Key definitions: `RecordCursor`, `fetch`, `peek`, `sample`,
`computeMetadata`, `resolveLabel`, `read`.
-/
import KeyedRows.Cursor.Basic
import KeyedRows.Key.Digest
import KeyedRows.Schema.Discovery

namespace KeyedRows

/-- Where a cursor finds a record to sample when its stream has none: nowhere,
in the set that it reads, or in a list of answers. -/
inductive Fallback where
  | nowhere
  | anyRecord (home : SetAddress)
  | listed (answers : List Event)

/-- The replay holds a record that was taken from the stream before the move
to it. -/
structure RecordCursor where
  home : SetAddress
  columns : List Column
  settings : Settings
  stream : RecordStream
  state : CursorState := {}
  current : Option Record := none
  replay : Option Record := none
  exhausted : Bool := false
  fallback : Fallback := .nowhere
  metadata : Option ResultMetadata := none

namespace RecordCursor

/-- The next record: the one kept, or one from the stream. -/
def fetch : CursorM RecordCursor (Option Record) := fun (c, cl) =>
  match c.replay with
  | some r => .ok (some r) ({ c with replay := none }, cl)
  | none =>
    if c.exhausted then .ok none (c, cl)
    else
      match c.stream.next with
      | (.ok (some r), stream) => .ok (some r) ({ c with stream }, cl)
      | (.ok none, stream) => .ok none ({ c with stream, exhausted := true }, cl)
      | (.error e, stream) => .error e ({ c with stream }, cl)

/-- The next record, kept for the next move. -/
def peek : CursorM RecordCursor (Option Record) := do
  match (← CursorM.cursor).replay with
  | some r => return some r
  | none =>
    let r ← fetch
    CursorM.change fun c => { c with replay := r }
    return r

/-- A record from elsewhere. -/
def askFallback : CursorM RecordCursor (Option Record) := do
  match (← CursorM.cursor).fallback with
  | .nowhere => return none
  | .anyRecord home => CursorM.onClient (Client.anyRecord home)
  | .listed [] => return none
  | .listed (answer :: rest) =>
    CursorM.change fun c => { c with fallback := .listed rest }
    return some (← ofExcept answer)

/-- A record to infer types from. -/
def sample : CursorM RecordCursor (Option Record) := do
  let c ← CursorM.cursor
  match c.current with
  | some r => return some r
  | none =>
    if c.state.done then askFallback
    else
      match ← peek with
      | some r => return some r
      | none => askFallback

/-- The bins of a record and the fields that come from its key. -/
def fieldsOf (settings : Settings) (r : Record) : Bins :=
  match r.key with
  | none => r.bins
  | some key =>
    let withKey :=
      if settings.special.key then r.bins.insert settings.keyColumn key.user.toValue else r.bins
    if settings.special.digest then withKey.insert settings.digestColumn (.bytes key.digest)
    else withKey

/-- Metadata of columns that were resolved against records. -/
def metadataOf (home : SetAddress) (resolved : List Column) : ResultMetadata :=
  if resolved.isEmpty then (ResultMetadata.ofTable home.space home.name).asDiscovered
  else (ResultMetadata.ofColumns resolved).asDiscovered

def computeMetadata : CursorM RecordCursor ResultMetadata := do
  let c ← CursorM.cursor
  if !c.columns.any Column.needsSample then return ResultMetadata.ofColumns c.columns
  let samples := (← sample).toList.map (fieldsOf c.settings)
  let reserved := [c.settings.keyColumn, c.settings.digestColumn]
  return metadataOf c.home (Discovery.resolve c.columns (fun _ => samples) reserved)

/-- The metadata, made once. -/
def getMetadata : CursorM RecordCursor ResultMetadata := do
  let c ← CursorM.cursor
  ofExcept c.state.ensureOpen
  match c.metadata with
  | some m => return m
  | none =>
    let m ← computeMetadata
    CursorM.change fun c => { c with metadata := some m }
    return m

def next : CursorM RecordCursor Bool := do
  let c ← CursorM.cursor
  ofExcept c.state.ensureOpen
  if c.state.done then return false
  match ← fetch with
  | some r =>
    CursorM.change fun c => { c with current := some r, state := c.state.advance }
    return true
  | none =>
    CursorM.change fun c => { c with current := none, state := c.state.finish }
    return false

/-- The first closing closes the stream. -/
def close : CursorM RecordCursor Unit := fun (c, cl) =>
  if c.state.closed then .ok () (c, cl)
  else
    .ok () ({ c with
      state := c.state.close, stream := c.stream.release, current := none, replay := none },
      cl.noteClosing c.stream)

/-- The name and the role of the column that a label means: the first with
this label, or else with this name; where there is a wildcard, any other label
is the name of a field. -/
def resolveLabel (columns : List Column) (label : String) : Except Error (String × ColumnRole) :=
  let named := (columns.find? (·.displayLabel == label)).or (columns.find? (·.name == label))
  let passed : Except Error (String × ColumnRole) :=
    if columns.any Column.isWildcard then .ok (label, .data) else .error (.columnNotFound label)
  match named with
  | some c => if c.isWildcard then passed else .ok (c.name, c.role)
  | none => passed

/-- The value of a column in a record. The key and its digest have columns of
their own, if the settings show them or the column is a key column. -/
def fieldOf (settings : Settings) (r : Record) (name : String) (role : ColumnRole) : Value :=
  let shows (enabled : Bool) (column : String) :=
    name == column && (enabled || role == .primaryKey)
  match r.key with
  | none => r.bins.read name
  | some key =>
    if shows settings.special.key settings.keyColumn then key.user.toValue
    else if shows settings.special.digest settings.digestColumn then .bytes key.digest
    else r.bins.read name

/-- The value under a label in the current record. -/
def read (c : RecordCursor) (label : String) : Except Error Value := do
  let (name, role) ← resolveLabel c.columns label
  match c.current with
  | some r => return fieldOf c.settings r name role
  | none => throw .outsideRow

/-- A row is current and no other follows it. -/
def isLast : CursorM RecordCursor Bool := do
  let c ← CursorM.cursor
  ofExcept c.state.ensureOpen
  if c.current.isNone then return false
  return (← peek).isNone

instance : RowCursor RecordCursor where
  state := RecordCursor.state
  withState c s := { c with state := s }
  remaining c := c.replay.toList.length + c.stream.pending.length
  next := next
  close := close
  metadata := getMetadata
  readValue label := do ofExcept ((← CursorM.cursor).read label)
  isLast := isLast

end RecordCursor
end KeyedRows
