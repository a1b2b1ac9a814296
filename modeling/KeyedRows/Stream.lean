/-
# Streams of records

A stream delivers records one at a time and may fail in between, each failure
once. What it will deliver is the list of its pending events; after them it
is at its end. Filters may stand before the reader: a record that one of them
refuses is passed over, a failure is not.

Key definitions: `Event`, `RecordStream`, `pull`, `RecordStream.next`,
`RecordStream.restrict`, `RecordStream.release`.
-/
import KeyedRows.Filter

namespace KeyedRows

/-- What a stream has next: a record or a failure. -/
abbrev Event := Except Error Record

/-- A stream that the store counts is one that the store handed out.
`closings` says how often the stream was told to close. -/
structure RecordStream where
  pending : List Event
  filters : List Filter := []
  counted : Bool := false
  closings : Nat := 0

/-- All of these filters accept the record. -/
def passes (filters : List Filter) (bins : Bins) : Bool := filters.all (·.accepts bins)

/-- The first event that is a failure or passes the filters, and the events
after it. -/
def pull (filters : List Filter) : List Event → Except Error (Option Record) × List Event
  | [] => (.ok none, [])
  | .error e :: rest => (.error e, rest)
  | .ok r :: rest => if passes filters r.bins then (.ok (some r), rest) else pull filters rest

namespace RecordStream

/-- A stream of these records. -/
def ofRecords (records : List Record) : RecordStream := { pending := records.map .ok }

/-- The next record, or nothing at the end, or a failure. -/
def next (s : RecordStream) : Except Error (Option Record) × RecordStream :=
  let (answer, rest) := pull s.filters s.pending
  (answer, { s with pending := rest })

/-- Up to so many answers; the stream is not asked again after its end. -/
def nextMany : Nat → RecordStream → List (Except Error (Option Record)) × RecordStream
  | 0, s => ([], s)
  | n + 1, s =>
    match s.next with
    | (.ok none, s) => ([.ok none], s)
    | (answer, s) =>
      let (answers, s) := nextMany n s
      (answer :: answers, s)

/-- The same stream with more filters before its reader. -/
def restrict (s : RecordStream) (filters : List Filter) : RecordStream :=
  { s with filters := s.filters ++ filters }

/-- Nothing is pending any more. -/
def release (s : RecordStream) : RecordStream :=
  { s with pending := [], closings := s.closings + 1 }

/-- Every record up to the end, or the first failure; and the stream after it. -/
def drain (s : RecordStream) : Except Error (List Record) × RecordStream :=
  go s.pending
where
  go : List Event → Except Error (List Record) × RecordStream
    | [] => (.ok [], { s with pending := [] })
    | .error e :: rest => (.error e, { s with pending := rest })
    | .ok r :: rest =>
      if passes s.filters r.bins then
        match go rest with
        | (.ok rs, after) => (.ok (r :: rs), after)
        | (.error e, after) => (.error e, after)
      else go rest

end RecordStream
end KeyedRows
