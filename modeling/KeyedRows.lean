import KeyedRows.OrderedMap
import KeyedRows.Text.Blank
import KeyedRows.Text.Quoted
import KeyedRows.Text.Utf8
import KeyedRows.Number.Written
import KeyedRows.Digest.Sha256
import KeyedRows.Calendar.Reader
import KeyedRows.Value.Written
import KeyedRows.Schema.Metadata
import KeyedRows.Key.Basic
import KeyedRows.Key.Digest
import KeyedRows.Aggregation
import KeyedRows.Stream
import KeyedRows.Store.Basic
import KeyedRows.Store.Client
import KeyedRows.Json.Reader
import KeyedRows.Json.Printer
import KeyedRows.Settings.Document
import KeyedRows.Settings.Environment
import KeyedRows.Plan.Operators
import KeyedRows.Schema.Discovery
import KeyedRows.Typed.Bytes
import KeyedRows.Typed.Moment
import KeyedRows.Cursor.Any
import KeyedRows.Cursor.Comparison
import KeyedRows.Statement.Distinct
import KeyedRows.Statement.Insert
import KeyedRows.Statement.Select
import KeyedRows.Proofs.Key.Bytes
import KeyedRows.Proofs.Key.Order
import KeyedRows.Proofs.Key.Digest
import KeyedRows.Proofs.Store.Client
import KeyedRows.Proofs.Store.Trees
import KeyedRows.Proofs.Stream
import KeyedRows.Proofs.Cursor.Calls
import KeyedRows.Proofs.Cursor.Record
import KeyedRows.Proofs.Cursor.Delivery
import KeyedRows.Proofs.Cursor.Closed
import KeyedRows.Proofs.Cursor.Filtered
import KeyedRows.Proofs.Cursor.Visits
import KeyedRows.Proofs.Cursor.Fields
import KeyedRows.Proofs.Statement.Insert
import KeyedRows.Proofs.Plan.Conditions
import KeyedRows.Proofs.Statement.Source
import KeyedRows.Proofs.Statement.Select
import KeyedRows.Proofs.Statement.Distinct
import KeyedRows.Proofs.Statement.ReadBack
import KeyedRows.Proofs.Statement.UpFront
import KeyedRows.Proofs.Statement.Where
import KeyedRows.Proofs.Store.History
import KeyedRows.Proofs.Schema.Visible
import KeyedRows.Proofs.Cursor.Metadata
import KeyedRows.Proofs.Cursor.Labels
import KeyedRows.Proofs.Cursor.Sifting
import KeyedRows.Proofs.Cursor.Carried
import KeyedRows.Proofs.Cursor.Changes
import KeyedRows.Proofs.Cursor.Under
import KeyedRows.Proofs.Cursor.States
import KeyedRows.Proofs.Cursor.Searching
import KeyedRows.Proofs.Cursor.Closing
import KeyedRows.Proofs.Cursor.Alike
import KeyedRows.Proofs.Cursor.Stack
import KeyedRows.Proofs.Cursor.Terminal
import KeyedRows.Proofs.Cursor.Sampling
import KeyedRows.Proofs.Cursor.Sampled
import KeyedRows.Proofs.Statement.Released
import KeyedRows.Proofs.Statement.RoundTrips
import KeyedRows.Proofs.Plan.NormalForm
import KeyedRows.Proofs.Store.Isolation
import KeyedRows.Proofs.Statement.Failing
import KeyedRows.Proofs.Statement.Interleaved
import KeyedRows.Proofs.Statement.Merging
import KeyedRows.Proofs.Statement.Ranges
import KeyedRows.Proofs.Firsts
import KeyedRows.Proofs.Text.Quoted
import KeyedRows.Proofs.Value.Described
import KeyedRows.Proofs.Aggregation
import KeyedRows.Proofs.Schema.Fetched
import KeyedRows.Proofs.Schema.Resolved
import KeyedRows.Proofs.Schema.Refined
import KeyedRows.Proofs.Schema.Repeated
import KeyedRows.Proofs.Cursor.Given
import KeyedRows.Proofs.Cursor.Nulls
import KeyedRows.Proofs.Store.Passing
import KeyedRows.Proofs.Stream.Residual
import KeyedRows.Proofs.Cursor.Positions
import KeyedRows.Proofs.Cursor.Resting
import KeyedRows.Proofs.Statement.Readable
import KeyedRows.Proofs.Plan.Registered
import KeyedRows.Proofs.Number.Digits
import KeyedRows.Proofs.Json.ReadBack
import KeyedRows.Proofs.Settings.Saved
import KeyedRows.Proofs.Calendar.Days
import KeyedRows.Proofs.Calendar.Reading
import KeyedRows.Proofs.Calendar.Texts
