/-
# Calls on a cursor

A call on a cursor is data, so that what holds of every order of calls is said
of every list of them. A call and the cursor and client that it finds make an
exchange; its answer and what it leaves behind follow from these.

The laws here say what the calls do that all kinds of cursor share, one
equation for each, on a cursor and a client: reading a field
(`getObject_apply`, `get_apply`), the first move (`first_apply`), finding a
column (`findColumn_apply`).

Key definitions: `CursorCall`, `Exchange`, `exchanges`, `afterAll`, `moves`,
`lastMove`, `Reads`.
-/
import KeyedRows.Cursor.Basic

namespace KeyedRows

/-- The calls of a cursor; `get` reads a field as a type. -/
inductive CursorCall : Type 1 where
  | next
  | first
  | close
  | metadata
  | findColumn (label : String)
  | isLast
  | readValue (label : String)
  | getObject (label : String)
  | get (α : Type) [Readable α] (label : String)
  | setFetchDirection (d : FetchDirection)
  | setFetchSize (rows : Nat)
  | clearWarnings
  | scroll (s : RowCursor.Scroll)
  | state

namespace CursorCall

/-- What a call is answered with. -/
abbrev Result : CursorCall → Type
  | next => Bool
  | first => Bool
  | close => Unit
  | metadata => ResultMetadata
  | findColumn _ => Nat
  | isLast => Bool
  | readValue _ => Value
  | getObject _ => Value
  | get α _ => α
  | setFetchDirection _ => Unit
  | setFetchSize _ => Unit
  | clearWarnings => Unit
  | scroll _ => Unit
  | state => CursorState

variable {γ : Type} [RowCursor γ]

def run : (k : CursorCall) → CursorM γ k.Result
  | next => RowCursor.next
  | first => RowCursor.first
  | close => RowCursor.close
  | metadata => RowCursor.metadata
  | findColumn label => RowCursor.findColumn label
  | isLast => RowCursor.isLast
  | readValue label => RowCursor.readValue label
  | getObject label => RowCursor.getObject label
  | get α label => RowCursor.get α label
  | setFetchDirection d => RowCursor.setFetchDirection d
  | setFetchSize rows => RowCursor.setFetchSize rows
  | clearWarnings => RowCursor.clearWarnings
  | scroll s => RowCursor.scroll s
  | state => RowCursor.getState

/-- The answer to a call. -/
def answer (k : CursorCall) (s : γ × Client) : Except Error k.Result :=
  match k.run s with
  | .ok a _ => .ok a
  | .error e _ => .error e

/-- The cursor and the client after a call, answered or failed. -/
def after (k : CursorCall) (s : γ × Client) : γ × Client :=
  match k.run s with
  | .ok _ t => t
  | .error _ t => t

/-- The cursor and the client after calls. -/
def afterAll (s : γ × Client) (calls : List CursorCall) : γ × Client :=
  calls.foldl (fun s k => k.after s) s

variable {k : CursorCall} {s t : γ × Client} {a : k.Result} {e : Error}

theorem answer_ok (h : k.run s = .ok a t) : k.answer s = .ok a := by simp only [answer, h]

theorem after_ok (h : k.run s = .ok a t) : k.after s = t := by simp only [after, h]

theorem answer_error (h : k.run s = .error e t) : k.answer s = .error e := by
  simp only [answer, h]

theorem after_error (h : k.run s = .error e t) : k.after s = t := by simp only [after, h]

theorem run_of_answer (h : k.answer s = .ok a) : k.run s = .ok a (k.after s) := by
  cases hrun : k.run s with
  | ok b t =>
    rw [answer_ok hrun] at h
    rw [after_ok hrun, Except.ok.inj h]
  | error e t =>
    rw [answer_error hrun] at h
    cases h

/-- The answer of a call that moves to a row. -/
def moved? : (k : CursorCall) → Except Error k.Result → Option Bool
  | next, .ok b => some b
  | first, .ok b => some b
  | _, _ => none

@[simp] theorem moved?_error (k : CursorCall) (e : Error) : k.moved? (.error e) = none := by
  cases k <;> rfl

/-- No other call moves. -/
theorem moved?_of_stays {k : CursorCall} (hnext : k ≠ next) (hfirst : k ≠ first)
    (a : Except Error k.Result) : k.moved? a = none := by
  cases k with
  | next => exact absurd rfl hnext
  | first => exact absurd rfl hfirst
  | _ => rfl

/-- The calls that ask for metadata. -/
def asksMetadata : CursorCall → Bool
  | metadata => true
  | findColumn _ => true
  | _ => false

end CursorCall

open CursorCall

/-- What is left after something ran, whether it gave a result or failed. -/
def leaves {σ α : Type} (op : EStateM Error σ α) (s : σ) : σ :=
  match op s with
  | .ok _ t => t
  | .error _ t => t

/-- What something gives, or why it fails. -/
def outcome {σ α : Type} (op : EStateM Error σ α) (s : σ) : Except Error α :=
  match op s with
  | .ok a _ => .ok a
  | .error e _ => .error e

section

variable {σ α : Type} {op : EStateM Error σ α} {s t : σ}

theorem leaves_ok {a : α} (h : op s = .ok a t) : leaves op s = t := by simp only [leaves, h]

theorem leaves_error {e : Error} (h : op s = .error e t) : leaves op s = t := by
  simp only [leaves, h]

theorem outcome_ok {a : α} (h : op s = .ok a t) : outcome op s = .ok a := by
  simp only [outcome, h]

theorem outcome_error {e : Error} (h : op s = .error e t) : outcome op s = .error e := by
  simp only [outcome, h]

end

theorem CursorCall.after_eq {γ : Type} [RowCursor γ] (k : CursorCall) (s : γ × Client) :
    k.after s = leaves k.run s := by
  unfold CursorCall.after leaves
  cases k.run s <;> rfl

/-- A call on the cursor and the client that it finds. -/
structure Exchange (γ : Type) : Type 1 where
  before : γ × Client
  call : CursorCall

section

variable {γ : Type} [RowCursor γ]

namespace Exchange

def answer (x : Exchange γ) : Except Error x.call.Result := x.call.answer x.before

def after (x : Exchange γ) : γ × Client := x.call.after x.before

/-- Whether the call moved to a row: true on a row, false after the last. -/
def moved? (x : Exchange γ) : Option Bool := x.call.moved? x.answer

/-- The failure of the call. -/
def error? (x : Exchange γ) : Option Error :=
  match x.answer with
  | .ok _ => none
  | .error e => some e

end Exchange

/-- The exchanges of calls that are made one after the other. -/
def exchanges (s : γ × Client) : List CursorCall → List (Exchange γ)
  | [] => []
  | k :: ks => ⟨s, k⟩ :: exchanges (k.after s) ks

/-- How often calls moved to a row. -/
def moves (xs : List (Exchange γ)) : Nat := xs.countP (·.moved? = some true)

/-- The answer of the last move that did not fail. -/
def lastMove (xs : List (Exchange γ)) : Option Bool := (xs.filterMap (·.moved?)).getLast?

namespace Exchange

variable {k : CursorCall} {s t : γ × Client} {x : Exchange γ} {e : Error}

theorem error?_eq_some : x.error? = some e ↔ x.answer = .error e := by
  unfold error?
  cases x.answer <;> simp

theorem error?_ok {a : k.Result} (h : k.run s = .ok a t) : (Exchange.mk s k).error? = none := by
  simp only [error?, answer, answer_ok h]

theorem error?_error (h : k.run s = .error e t) : (Exchange.mk s k).error? = some e := by
  simp only [error?, answer, answer_error h]

theorem moved?_of_error (he : x.error? = some e) : x.moved? = none := by
  unfold error? at he
  unfold moved?
  cases hx : x.answer with
  | ok a => rw [hx] at he; cases he
  | error e' => exact moved?_error _ _

theorem moved?_next {b : Bool} (h : CursorCall.next.run s = .ok b t) :
    (Exchange.mk s .next).moved? = some b := by
  rw [moved?, answer, answer_ok h]
  rfl

end Exchange

theorem moves_append (xs : List (Exchange γ)) (x : Exchange γ) :
    moves (xs ++ [x]) = moves xs + if x.moved? = some true then 1 else 0 := by
  simp [moves, List.countP_append, List.countP_cons]

theorem lastMove_append (xs : List (Exchange γ)) (x : Exchange γ) :
    lastMove (xs ++ [x]) = x.moved?.or (lastMove xs) := by
  unfold lastMove
  rw [List.filterMap_append]
  cases hx : x.moved? with
  | none => simp [hx]
  | some b => simp [hx]

theorem moves_pos {xs : List (Exchange γ)} (h : lastMove xs = some true) : 0 < moves xs := by
  obtain ⟨x, hx, hm⟩ := List.mem_filterMap.mp (List.mem_of_getLast? h)
  exact List.countP_pos_iff.mpr ⟨x, hx, by simp [hm]⟩

/-- All getters read these values. -/
structure Reads (s : γ × Client) (values : String → Except Error Value) : Prop where
  readValue : ∀ label, (CursorCall.readValue label).answer s = values label
  getObject : ∀ label, (CursorCall.getObject label).answer s = values label
  get : ∀ (α : Type) [Readable α] label,
    (CursorCall.get α label).answer s = values label >>= Readable.read

@[simp] theorem afterAll_nil (s : γ × Client) : afterAll s [] = s := rfl

@[simp] theorem afterAll_cons (s : γ × Client) (k : CursorCall) (ks : List CursorCall) :
    afterAll s (k :: ks) = afterAll (k.after s) ks := rfl

theorem exchanges_append (s : γ × Client) (k : CursorCall) : ∀ ks : List CursorCall,
    exchanges s (ks ++ [k]) = exchanges s ks ++ [⟨afterAll s ks, k⟩] := by
  intro ks
  induction ks generalizing s with
  | nil => rfl
  | cons k' ks ih => simp only [List.cons_append, exchanges, ih, afterAll_cons]

theorem afterAll_append (s : γ × Client) (ks : List CursorCall) (k : CursorCall) :
    afterAll s (ks ++ [k]) = k.after (afterAll s ks) := by
  simp only [afterAll, List.foldl_append, List.foldl_cons, List.foldl_nil]

/-- Calls and then others. -/
theorem afterAll_then (s : γ × Client) (ks later : List CursorCall) :
    afterAll s (ks ++ later) = afterAll (afterAll s ks) later := List.foldl_append

theorem exchanges_then (ks later : List CursorCall) : ∀ s : γ × Client,
    exchanges s (ks ++ later) = exchanges s ks ++ exchanges (afterAll s ks) later := by
  induction ks with
  | nil => exact fun _ => rfl
  | cons k ks ih =>
    intro s
    simp only [List.cons_append, exchanges, ih, afterAll_cons]

/-- What every call keeps holds before and after every one of them. -/
theorem exchanges_keep {I : γ × Client → Prop} {allowed : CursorCall → Prop}
    (step : ∀ s k, I s → allowed k → I (k.after s)) :
    ∀ (calls : List CursorCall) (s : γ × Client), I s → (∀ k ∈ calls, allowed k) →
      I (afterAll s calls) ∧ ∀ x ∈ exchanges s calls, I x.before ∧ allowed x.call
  | [], s, hs, _ => ⟨hs, fun x hx => by cases hx⟩
  | k :: ks, s, hs, hk => by
    have hkk := hk k List.mem_cons_self
    obtain ⟨hlast, hall⟩ := exchanges_keep step ks (k.after s) (step s k hs hkk)
      fun k' hk' => hk k' (List.mem_cons_of_mem _ hk')
    refine ⟨hlast, fun x hx => ?_⟩
    rcases List.mem_cons.mp hx with rfl | hx
    · exact ⟨hs, hkk⟩
    · exact hall x hx

end

/-! ### What the calls do -/

namespace CursorM

variable {γ α β : Type}

theorem bind_apply (x : CursorM γ α) (f : α → CursorM γ β) (s : γ × Client) :
    (x >>= f) s = match x s with
      | .ok a t => f a t
      | .error e t => .error e t := by
  simp only [bind, EStateM.bind]
  cases x s <;> rfl

@[simp] theorem pure_apply (a : α) (s : γ × Client) : (pure a : CursorM γ α) s = .ok a s := rfl

@[simp] theorem throw_apply (e : Error) (s : γ × Client) :
    (throw e : CursorM γ α) s = .error e s := rfl

@[simp] theorem cursor_apply (s : γ × Client) : (cursor : CursorM γ γ) s = .ok s.1 s := rfl

@[simp] theorem change_apply (f : γ → γ) (s : γ × Client) :
    change f s = .ok () (f s.1, s.2) := rfl

@[simp] theorem ofExcept_ok (a : α) (s : γ × Client) :
    (ofExcept (.ok a : Except Error α) : CursorM γ α) s = .ok a s := rfl

@[simp] theorem ofExcept_error (e : Error) (s : γ × Client) :
    (ofExcept (.error e : Except Error α) : CursorM γ α) s = .error e s := rfl

end CursorM

/-- A row can be read where a cursor is open and on a row; a closed cursor refuses, and
one that is off its rows does. -/
theorem CursorState.ensureRow_cases (s : CursorState) :
    (s.closed = false ∧ s.onRow = true ∧ s.ensureRow = .ok ()) ∨
      (s.closed = true ∧ s.ensureRow = .error (.closed "cursor")) ∨
      (s.closed = false ∧ s.onRow = false ∧ s.ensureRow = .error .outsideRow) := by
  unfold ensureRow ensureOpen
  cases s.closed <;> cases s.onRow <;> simp [bind, Except.bind]

theorem CursorState.ensureRow_eq_ok {s : CursorState} :
    s.ensureRow = .ok () ↔ s.closed = false ∧ s.onRow = true := by
  rcases s.ensureRow_cases with ⟨hopen, hon, hrow⟩ | ⟨hclosed, hrow⟩ | ⟨-, hoff, hrow⟩ <;>
    simp [*]

namespace RowCursor

open CursorM

variable {γ : Type} [RowCursor γ] {c : γ} {cl : Client}

@[simp] theorem getState_apply (s : γ × Client) :
    (getState : CursorM γ CursorState) s = .ok (state s.1) s := rfl

theorem ensureOpen_apply (h : (state c).closed = false) :
    (ensureOpen : CursorM γ Unit) (c, cl) = .ok () (c, cl) := by
  simp [ensureOpen, bind_apply, CursorState.ensureOpen, h]

/-- Reading a field: off a row it fails, on a row it reads and notes whether
the value was null. -/
theorem getObject_apply (label : String) : getObject label (c, cl) =
    match (state c).ensureRow with
    | .error e => .error e (c, cl)
    | .ok () =>
      match readValue label (c, cl) with
      | .ok v (d, cl) => .ok v (withState d ((state d).recordRead v), cl)
      | .error e t => .error e t := by
  simp only [getObject, ensureRow, bind_apply, getState_apply]
  cases (state c).ensureRow with
  | error e => rfl
  | ok u =>
    simp only [ofExcept_ok]
    cases readValue label (c, cl) <;> rfl

/-- A typed reading reads the field first. -/
theorem get_apply (α : Type) [Readable α] (label : String) : get α label (c, cl) =
    match getObject label (c, cl) with
    | .ok v t => (ofExcept (Readable.read v) : CursorM γ α) t
    | .error e t => .error e t := by
  rw [get, bind_apply]
  cases getObject label (c, cl) <;> rfl

/-- The first move: a move from before the first row, and refused elsewhere. -/
theorem first_apply (h : (state c).closed = false) : (first : CursorM γ Bool) (c, cl) =
    if (state c).isBeforeFirst then RowCursor.next (c, cl)
    else .error (.forwardOnly "cannot rewind: first") (c, cl) := by
  simp only [first, bind_apply, ensureOpen_apply h, getState_apply]
  cases (state c).isBeforeFirst <;> rfl

/-- A getter answers only on a row, with the value there. -/
theorem getObject_answer (label : String) : (CursorCall.getObject label).answer (c, cl) =
    (state c).ensureRow >>= fun _ => (CursorCall.readValue label).answer (c, cl) := by
  simp only [CursorCall.answer, CursorCall.run, getObject_apply]
  cases (state c).ensureRow with
  | error e => rfl
  | ok u =>
    simp only [bind, Except.bind]
    cases readValue label (c, cl) <;> rfl

/-- A typed getter answers with its reading of the value. -/
theorem get_answer (α : Type) [Readable α] (label : String) (s : γ × Client) :
    (CursorCall.get α label).answer s =
      (CursorCall.getObject label).answer s >>= (Readable.read : Value → Except Error α) := by
  obtain ⟨c, cl⟩ := s
  simp only [CursorCall.answer, CursorCall.run, get_apply]
  cases getObject label (c, cl) with
  | ok v t =>
    simp only [bind, Except.bind]
    cases (Readable.read v : Except Error α) <;> rfl
  | error e t => rfl

/-- On a row of an open cursor all getters read what its values are. -/
theorem reads_of_readValue {values : String → Except Error Value}
    (hrow : (state c).ensureRow = .ok ())
    (h : ∀ label, (CursorCall.readValue label).answer (c, cl) = values label) :
    Reads (c, cl) values := by
  have hobj : ∀ label, (CursorCall.getObject label).answer (c, cl) = values label := by
    intro label
    rw [getObject_answer, hrow, h]
    rfl
  refine ⟨h, hobj, fun α _ label => ?_⟩
  rw [get_answer, hobj]

theorem get_after (α : Type) [Readable α] (label : String) (s : γ × Client) :
    (CursorCall.get α label).after s = (CursorCall.getObject label).after s := by
  obtain ⟨c, cl⟩ := s
  simp only [CursorCall.after, CursorCall.run, get_apply]
  cases getObject label (c, cl) with
  | ok v t =>
    simp only
    cases (Readable.read v : Except Error α) <;> rfl
  | error e t => rfl

theorem findColumn_apply (label : String) : findColumn label (c, cl) =
    match (metadata (c, cl) : EStateM.Result Error (γ × Client) ResultMetadata) with
    | .ok m t => (ofExcept (m.findColumn label) : CursorM γ Nat) t
    | .error e t => .error e t := by
  rw [findColumn, bind_apply]
  cases (metadata (c, cl) : EStateM.Result Error (γ × Client) ResultMetadata) <;> rfl

/-- Where the first move is a move, it does what the move does. -/
theorem first_same {s : γ × Client}
    (hrun : CursorCall.first.run s = CursorCall.next.run s) :
    (Exchange.mk s CursorCall.first).after = (Exchange.mk s CursorCall.next).after ∧
      (Exchange.mk s CursorCall.first).moved? = (Exchange.mk s CursorCall.next).moved? ∧
      (Exchange.mk s CursorCall.first).error? = (Exchange.mk s CursorCall.next).error? := by
  simp only [Exchange.after, Exchange.moved?, Exchange.error?, Exchange.answer]
  cases hn : CursorCall.next.run s with
  | ok b t =>
    have hf := hrun.trans hn
    rw [after_ok hf, after_ok hn, answer_ok hf, answer_ok hn]
    exact ⟨rfl, rfl, rfl⟩
  | error e t =>
    have hf := hrun.trans hn
    rw [after_error hf, after_error hn, answer_error hf, answer_error hn]
    exact ⟨rfl, rfl, rfl⟩

theorem ensureOpen_closed (h : (state c).closed = true) (cl : Client) :
    (ensureOpen : CursorM γ Unit) (c, cl) = .error (.closed "cursor") (c, cl) := by
  simp [ensureOpen, bind_apply, CursorState.ensureOpen, h]

theorem getObject_closed (h : (state c).closed = true) (label : String) (cl : Client) :
    getObject label (c, cl) = .error (.closed "cursor") (c, cl) := by
  rw [getObject_apply]
  simp only [CursorState.ensureRow, CursorState.ensureOpen, h]
  rfl

/-- The first move moves or does nothing. -/
theorem first_after (s : γ × Client) :
    CursorCall.first.after s = s ∨ CursorCall.first.after s = CursorCall.next.after s := by
  obtain ⟨c, cl⟩ := s
  cases hclosed : (state c).closed with
  | true =>
    have hrun : CursorCall.first.run (c, cl) = .error (.closed "cursor") (c, cl) := by
      rw [CursorCall.run, first, bind_apply, ensureOpen_closed hclosed]
    exact .inl (after_error hrun)
  | false =>
    have hrun : CursorCall.first.run (c, cl) = _ := first_apply hclosed
    by_cases hbefore : (state c).isBeforeFirst = true
    · rw [if_pos hbefore] at hrun
      exact .inr (first_same hrun).1
    · rw [if_neg hbefore] at hrun
      exact .inl (after_error hrun)

/-- Setting the direction adds a warning or does nothing. -/
theorem setFetchDirection_after (d : FetchDirection) (s : γ × Client) :
    (CursorCall.setFetchDirection d).after s = s ∨
      ∃ text, (CursorCall.setFetchDirection d).after s =
        (withState s.1 ((state s.1).warn text), s.2) := by
  obtain ⟨c, cl⟩ := s
  simp only [CursorCall.after, CursorCall.run, setFetchDirection, bind_apply]
  cases hclosed : (state c).closed with
  | true =>
    rw [ensureOpen_closed hclosed]
    exact .inl rfl
  | false =>
    rw [ensureOpen_apply hclosed]
    by_cases hforward : d = .forward
    · exact .inl (by simp [hforward])
    · exact .inr ⟨_, by simp only [ne_eq, hforward, not_false_eq_true, if_true]; rfl⟩

theorem setFetchSize_after (rows : Nat) (s : γ × Client) :
    (CursorCall.setFetchSize rows).after s = s := by
  by_cases hrows : rows ≤ 1 <;> simp [CursorCall.after, CursorCall.run, setFetchSize, hrows]

/-- A getter fails and has done no more than to look for its value, or it notes the
value that it answers with. -/
theorem getObject_cases (label : String) (s : γ × Client) :
    (∃ e, (CursorCall.getObject label).answer s = .error e ∧
      ((CursorCall.getObject label).after s = s ∨
        (CursorCall.getObject label).after s = (CursorCall.readValue label).after s)) ∨
    (∃ v, (CursorCall.getObject label).answer s = .ok v ∧
      (CursorCall.getObject label).after s =
        (withState ((CursorCall.readValue label).after s).1
          ((state ((CursorCall.readValue label).after s).1).recordRead v),
          ((CursorCall.readValue label).after s).2)) := by
  obtain ⟨c, cl⟩ := s
  simp only [CursorCall.answer, CursorCall.after, CursorCall.run, getObject_apply]
  cases (state c).ensureRow with
  | error e => exact .inl ⟨e, rfl, .inl rfl⟩
  | ok u =>
    cases readValue label (c, cl) with
    | ok v t => exact .inr ⟨v, rfl, rfl⟩
    | error e t => exact .inl ⟨e, rfl, .inr rfl⟩

/-- A getter reads the field, unless it stands off a row, and notes what it
read. -/
theorem getObject_after (label : String) (s : γ × Client) :
    (CursorCall.getObject label).after s = s ∨
      (CursorCall.getObject label).after s = (CursorCall.readValue label).after s ∨
      ∃ v, (CursorCall.getObject label).after s =
        (withState ((CursorCall.readValue label).after s).1
          ((state ((CursorCall.readValue label).after s).1).recordRead v),
          ((CursorCall.readValue label).after s).2) := by
  rcases getObject_cases label s with ⟨-, -, h | h⟩ | ⟨v, -, h⟩
  · exact .inl h
  · exact .inr (.inl h)
  · exact .inr (.inr ⟨v, h⟩)

theorem findColumn_after (label : String) (s : γ × Client) :
    (CursorCall.findColumn label).after s = CursorCall.metadata.after s := by
  obtain ⟨c, cl⟩ := s
  simp only [CursorCall.after, CursorCall.run, findColumn_apply]
  cases (metadata (c, cl) : EStateM.Result Error (γ × Client) ResultMetadata) with
  | ok m t =>
    simp only
    cases m.findColumn label <;> rfl
  | error e t => rfl

/-- Finding a column asks for metadata and no more. -/
theorem asks_after {k : CursorCall} (h : k.asksMetadata = true) (s : γ × Client) :
    k.after s = CursorCall.metadata.after s := by
  cases k with
  | metadata => rfl
  | findColumn label => exact findColumn_after label s
  | _ => cases h

/-- **What the calls lead to that each kind of cursor has of its own**, and
changes of the state that do not close it, every call but the closing leads to. -/
theorem leads_of_own {R : γ × Client → γ × Client → Prop} (refl : ∀ s, R s s)
    (trans : ∀ {s t u}, R s t → R t u → R s u) {k : CursorCall} {s : γ × Client}
    (hclose : k ≠ .close) (next : R s (CursorCall.next.after s))
    (metadata : k.asksMetadata = true → R s (CursorCall.metadata.after s))
    (isLast : R s (CursorCall.isLast.after s))
    (readValue : ∀ label, R s ((CursorCall.readValue label).after s))
    (onState : ∀ t st, st.closed = (state t.1).closed → R t (withState t.1 st, t.2)) :
    R s (k.after s) := by
  have getObject (label : String) : R s ((CursorCall.getObject label).after s) := by
    rcases getObject_after label s with h | h | ⟨v, h⟩ <;> rw [h]
    · exact refl s
    · exact readValue label
    · exact trans (readValue label) (onState _ _ rfl)
  cases k with
  | close => exact absurd rfl hclose
  | next => exact next
  | first =>
    rcases first_after s with h | h <;> rw [h]
    · exact refl s
    · exact next
  | metadata => exact metadata rfl
  | findColumn label =>
    rw [findColumn_after]
    exact metadata rfl
  | isLast => exact isLast
  | readValue label => exact readValue label
  | getObject label => exact getObject label
  | get α label =>
    rw [get_after]
    exact getObject label
  | setFetchDirection d =>
    rcases setFetchDirection_after d s with h | ⟨text, h⟩ <;> rw [h]
    · exact refl s
    · exact onState _ _ rfl
  | setFetchSize rows =>
    rw [setFetchSize_after]
    exact refl s
  | clearWarnings => exact onState s _ rfl
  | scroll m => exact refl s
  | state => exact refl s

end RowCursor
end KeyedRows
