/-
# Clients

A client passes calls to a store, one at a time, and keeps a log of them. Any
call may fail on the way: a fault waits for the calls of its kind, lets some
of them pass and strikes the next. The client also counts the streams of the
store that were closed.

Key definitions: `CallKind`, `Fault`, `Client`, `ClientM`, `Client.call`,
`Client.roundTrips`, `Client.closeStream`.
-/
import KeyedRows.Store.Basic
import KeyedRows.Stream

namespace KeyedRows

inductive CallKind where
  | get
  | getBatch
  | put
  | scan
  | query
  | queryAggregate
  | anyRecord
deriving DecidableEq

def Call.kind : Call → CallKind
  | .get _ => .get
  | .getBatch _ => .getBatch
  | .put _ _ => .put
  | .scan _ => .scan
  | .query _ => .query
  | .queryAggregate _ _ => .queryAggregate
  | .anyRecord _ => .anyRecord

/-- A failure of the call of a kind that comes after `passes` others. -/
structure Fault where
  kind : CallKind
  passes : Nat
  message : String
deriving DecidableEq

/-- What the faults do to a call: the message of the one that strikes, and
the faults that wait from then on. Only the first of a kind counts down. -/
def strike (kind : CallKind) : List Fault → Option String × List Fault
  | [] => (none, [])
  | f :: fs =>
    if f.kind = kind then
      match f.passes with
      | 0 => (some f.message, fs)
      | n + 1 => (none, { f with passes := n } :: fs)
    else
      let (message, fs) := strike kind fs
      (message, f :: fs)

/-- A call that was made, and whether it reached the store. -/
structure LoggedCall where
  call : Call
  answered : Bool
deriving DecidableEq

/-- The log is in the order of the calls. -/
structure Client where
  store : Store
  faults : List Fault := []
  log : List LoggedCall := []
  closedStreams : Nat := 0

/-- What works on a client and may fail; the client stays as it is at the
failure. -/
abbrev ClientM := EStateM Error Client

namespace Client

/-- How many calls reached the store. -/
def roundTrips (c : Client) : Nat := c.log.countP (·.answered)

/-- The client with one more call in its log. -/
def record (c : Client) (call : Call) (answered : Bool) : Client :=
  { c with log := c.log ++ [LoggedCall.mk call answered] }

/-- One call: a fault strikes it, or the store answers it. -/
def call (k : Call) : ClientM k.Result := fun c =>
  match strike k.kind c.faults with
  | (some message, faults) => .error (.storage message) ({ c with faults }.record k false)
  | (none, faults) =>
    let after := { c with faults, store := c.store.after k }.record k true
    match c.store.answer k with
    | .ok r => .ok r after
    | .error e => .error e after

/-- A stream of the store's records. -/
def deliver (records : List Record) : RecordStream :=
  { RecordStream.ofRecords records with counted := true }

def get (k : Key) : ClientM (Option Bins) := call (.get k)

def getBatch (ks : List Key) : ClientM (List (Option Bins)) := call (.getBatch ks)

def put (k : Key) (bins : Bins) : ClientM Unit := call (.put k bins)

def scan (home : SetAddress) : ClientM RecordStream := deliver <$> call (.scan home)

def query (q : IndexQuery) : ClientM RecordStream := deliver <$> call (.query q)

def queryAggregate (q : IndexQuery) (a : Aggregation) : ClientM RecordStream :=
  deliver <$> call (.queryAggregate q a)

def anyRecord (home : SetAddress) : ClientM (Option Record) := call (.anyRecord home)

/-- The client after a stream is closed; the first closing of a stream of the
store counts. -/
def noteClosing (s : RecordStream) (c : Client) : Client :=
  if s.counted && s.closings == 0 then { c with closedStreams := c.closedStreams + 1 } else c

/-- Closes a stream. -/
def closeStream (s : RecordStream) : ClientM RecordStream := fun c =>
  .ok s.release (c.noteClosing s)

end Client
end KeyedRows
