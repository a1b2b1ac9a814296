/-
# Inserting

Rows become records under the keys that they name. In strict mode one call
first asks for all the keys, and the rows are refused together if one of them
exists or stands twice; then, and in the other mode at once, one call for each
row merges its values into the record of its key.

An insert that is under way is data: which calls it still has to make. Each of
its steps makes one call.

Key definitions: `Insert`, `Insert.ofRows`, `Insert.writes`, `Insertion`,
`Insertion.step`, `Insertion.run`, `Insert.run`.
Key theorem: `Insertion.run_step`: a step leaves the outcome as it is.
-/
import KeyedRows.Cursor.Static
import KeyedRows.Key.Digest
import KeyedRows.Settings.Basic

namespace KeyedRows

/-- What becomes of rows whose keys exist or stand twice. -/
inductive InsertMode where
  | strict
  | ignore
deriving DecidableEq, Inhabited

structure Insert where
  home : SetAddress
  columns : List String
  rows : List (List Value)
  keyIndex : Nat
  keyColumn : String
  mode : InsertMode := .strict

/-- One row to be written. -/
structure RowWrite where
  key : Key
  bins : Bins
deriving DecidableEq, Inhabited

namespace Insert

/-- The rows, one column of which must be the key column. -/
def ofRows (settings : Settings) (setName : String) (columns : List String)
    (rows : List (List Value)) : Except Error Insert :=
  match columns.findIdx? (· == settings.keyColumn) with
  | some keyIndex =>
    .ok { home := ⟨settings.space, setName⟩, columns, rows, keyIndex,
          keyColumn := settings.keyColumn }
  | none => .error (.missingPrimaryKey settings.keyColumn)

/-- The key of a row with a value for every column. -/
def keyOf (i : Insert) (row : List Value) : Except Error Key :=
  if row.length = i.columns.length then do
    return ⟨i.home, ← UserKey.ofValue i.keyColumn (row.getD i.keyIndex .null)⟩
  else
    .error (.invalidReason i.keyColumn
      s!"row has {row.length} values for {i.columns.length} columns")

/-- The values of a row under the other columns; of two with one name the
later counts. -/
def binsOf (i : Insert) (row : List Value) : Bins :=
  .ofList ((i.columns.zip row).eraseIdx i.keyIndex)

/-- The rows with their keys, or the error of the first row that has none. -/
def writes (i : Insert) : Except Error (List RowWrite) :=
  i.rows.mapM fun row => do return ⟨← i.keyOf row, i.binsOf row⟩

end Insert

/-! ### Calls -/

/-- What an insert still has to do: to ask for its keys and then write, to
write rows after those that are written, or nothing. -/
inductive Insertion where
  | checking (rows : List RowWrite)
  | writing (written : Nat) (rows : List RowWrite)
  | ended (result : Except Error Nat)

/-- The keys that stand twice, each at its second and later places. -/
def repeatedKeys : List (List UInt8) → List Key → List Key
  | _, [] => []
  | seen, k :: ks =>
    if seen.contains k.digest then k :: repeatedKeys seen ks
    else repeatedKeys (k.digest :: seen) ks

/-- The keys for which a record was found. -/
def existingKeys (keys : List Key) (found : List (Option Bins)) : List Key :=
  ((keys.zip found).filter (·.2.isSome)).map (·.1)

/-- The keys as an error lists them. -/
def keyList (keys : List Key) : String :=
  ", ".intercalate (keys.map fun k => String.ofList k.user.toValue.shown)

/-- No key exists and none stands twice. -/
def checkFound (rows : List RowWrite) (found : List (Option Bins)) : Except Error Unit :=
  let keys := rows.map (·.key)
  match repeatedKeys [] keys ++ existingKeys keys found with
  | [] => .ok ()
  | k :: ks => .error (.duplicateKey (keyList (k :: ks)))

/-- One call for each row, and the number of rows written in the end. -/
def writeRows (written : Nat) : List RowWrite → ClientM Nat
  | [] => pure written
  | row :: rows => do
    Client.put row.key row.bins
    writeRows (written + 1) rows

namespace Insertion

/-- What the answer to the question for the keys leads to. -/
def afterCheck (rows : List RowWrite) (found : List (Option Bins)) : Insertion :=
  match checkFound rows found with
  | .ok () => .writing 0 rows
  | .error e => .ended (.error e)

/-- One call; none when no rows are left or the insert has ended. -/
def step : Insertion → Client → Insertion × Client
  | .checking rows, c =>
    match Client.getBatch (rows.map (·.key)) c with
    | .ok found c => (afterCheck rows found, c)
    | .error e c => (.ended (.error e), c)
  | .writing written [], c => (.ended (.ok written), c)
  | .writing written (row :: rows), c =>
    match Client.put row.key row.bins c with
    | .ok _ c => (.writing (written + 1) rows, c)
    | .error e c => (.ended (.error e), c)
  | .ended result, c => (.ended result, c)

/-- All the calls that are left, and the number of rows written. -/
def run : Insertion → ClientM Nat
  | .checking rows => do
    let found ← Client.getBatch (rows.map (·.key))
    ofExcept (checkFound rows found)
    writeRows 0 rows
  | .writing written rows => writeRows written rows
  | .ended result => ofExcept result

/-- **A step leaves the outcome as it is.** -/
theorem run_step : ∀ (i : Insertion) (c : Client), (i.step c).1.run (i.step c).2 = i.run c
  | .ended _, _ => rfl
  | .writing _ [], _ => rfl
  | .writing written (row :: rows), c => by
    simp only [step, run, writeRows, bind, EStateM.bind]
    cases Client.put row.key row.bins c <;> rfl
  | .checking rows, c => by
    simp only [step, run, bind, EStateM.bind]
    cases Client.getBatch (rows.map (·.key)) c with
    | error e c => rfl
    | ok found c =>
      simp only [afterCheck]
      cases checkFound rows found <;> rfl

end Insertion

namespace Insert

/-- The calls that the insert has to make. -/
def start (i : Insert) : Except Error Insertion := do
  let rows ← i.writes
  match i.mode with
  | .strict => return .checking rows
  | .ignore => return .writing 0 rows

/-- The number of rows written. -/
def run (i : Insert) : ClientM Nat := do
  let insertion ← ofExcept i.start
  insertion.run

/-- The result of an insert: no rows, of this table. -/
def result (i : Insert) : StaticCursor :=
  .empty (.ofTable i.home.space i.home.name)

end Insert
end KeyedRows
