/-
# Cursors that behave as the one inside

A cursor of any kind is a record cursor or one over given rows in a wrapping
that passes every call on. What passes on the calls that each kind has of its
own passes on all calls (`Carries.run`), so what is known of the cursor inside
is known of the wrapped one.

Key definitions: `mapCursor`, `Carries`.
Key theorem: **`Carries.run`**.
-/
import KeyedRows.Cursor.Any
import KeyedRows.Proofs.Cursor.Calls

namespace KeyedRows

open CursorM CursorCall

section

variable {γ δ α β : Type}

/-- The same outcome, on what a function makes of the cursor that is left. -/
def mapCursor (φ : γ → δ) :
    EStateM.Result Error (γ × Client) α → EStateM.Result Error (δ × Client) α
  | .ok a t => .ok a (φ t.1, t.2)
  | .error e t => .error e (φ t.1, t.2)

/-- The second call does on a wrapped cursor what the first does on the one
inside. -/
def Along (φ : γ → δ) (op : CursorM γ α) (wrapped : CursorM δ α) : Prop :=
  ∀ s, wrapped (φ s.1, s.2) = mapCursor φ (op s)

variable {φ : γ → δ}

theorem along_pure (a : α) : Along φ (pure a) (pure a) := fun _ => rfl

theorem along_throw (e : Error) : Along φ (throw e : CursorM γ α) (throw e) := fun _ => rfl

theorem along_ofExcept : ∀ x : Except Error α,
    Along φ (ofExcept x : CursorM γ α) (ofExcept x)
  | .ok a => along_pure a
  | .error e => along_throw e

theorem Along.bind {op : CursorM γ α} {wrapped : CursorM δ α} {f : α → CursorM γ β}
    {g : α → CursorM δ β} (h : Along φ op wrapped) (hf : ∀ a, Along φ (f a) (g a)) :
    Along φ (op >>= f) (wrapped >>= g) := by
  intro s
  rw [bind_apply, bind_apply, h s]
  cases op s with
  | ok a t => exact hf a t
  | error e t => rfl

/-- A wrapping in a wrapping. -/
theorem Along.trans {ε : Type} {ψ : δ → ε} {op : CursorM γ α} {wrapped : CursorM δ α}
    {outer : CursorM ε α} (h : Along φ op wrapped) (h' : Along ψ wrapped outer) :
    Along (fun c => ψ (φ c)) op outer := by
  intro s
  rw [h' (φ s.1, s.2), h s]
  cases op s <;> rfl

variable [RowCursor γ] [RowCursor δ]

/-- What the function makes of a cursor passes on the calls that each kind of
cursor has of its own. -/
structure Carries (φ : γ → δ) : Prop where
  state : ∀ c, RowCursor.state (φ c) = RowCursor.state c
  withState : ∀ c st, RowCursor.withState (φ c) st = φ (RowCursor.withState c st)
  next : Along φ RowCursor.next RowCursor.next
  close : Along φ RowCursor.close RowCursor.close
  metadata : Along φ RowCursor.metadata RowCursor.metadata
  readValue : ∀ label, Along φ (RowCursor.readValue label) (RowCursor.readValue label)
  isLast : Along φ RowCursor.isLast RowCursor.isLast

namespace Carries

theorem getState (h : Carries φ) : Along φ RowCursor.getState RowCursor.getState := by
  intro s
  rw [RowCursor.getState_apply, RowCursor.getState_apply, h.state]
  rfl

theorem onState (h : Carries φ) (f : CursorState → CursorState) :
    Along φ (RowCursor.onState f) (RowCursor.onState f) := by
  intro s
  simp only [RowCursor.onState, change_apply, h.state, h.withState]
  rfl

theorem ensureOpen (h : Carries φ) : Along φ RowCursor.ensureOpen RowCursor.ensureOpen :=
  h.getState.bind fun _ => along_ofExcept _

theorem getObject (h : Carries φ) (label : String) :
    Along φ (RowCursor.getObject label) (RowCursor.getObject label) := by
  have hrow : Along φ RowCursor.ensureRow RowCursor.ensureRow :=
    h.getState.bind fun _ => along_ofExcept _
  exact hrow.bind fun _ => (h.readValue label).bind fun v =>
    (h.onState _).bind fun _ => along_pure v

/-- **Every call is passed on.** -/
theorem run (h : Carries φ) (k : CursorCall) : Along φ k.run k.run := by
  cases k with
  | next => exact h.next
  | first =>
    refine h.ensureOpen.bind fun _ => h.getState.bind fun st => ?_
    cases st.isBeforeFirst with
    | true => exact h.next
    | false => exact along_throw _
  | close => exact h.close
  | metadata => exact h.metadata
  | findColumn label => exact h.metadata.bind fun _ => along_ofExcept _
  | isLast => exact h.isLast
  | readValue label => exact h.readValue label
  | getObject label => exact h.getObject label
  | get α label => exact (h.getObject label).bind fun _ => along_ofExcept _
  | setFetchDirection d =>
    refine h.ensureOpen.bind fun _ => ?_
    split
    · exact h.onState _
    · exact along_pure ()
  | setFetchSize rows =>
    simp only [CursorCall.run, RowCursor.setFetchSize]
    split
    · exact along_pure ()
    · exact along_throw _
  | clearWarnings => exact h.onState _
  | scroll m => exact along_throw _
  | state => exact h.getState

theorem trans {ε : Type} [RowCursor ε] {ψ : δ → ε} (h : Carries φ) (h' : Carries ψ) :
    Carries fun c => ψ (φ c) where
  state c := (h'.state (φ c)).trans (h.state c)
  withState c st := by rw [h'.withState, h.withState]
  next := h.next.trans h'.next
  close := h.close.trans h'.close
  metadata := h.metadata.trans h'.metadata
  readValue label := (h.readValue label).trans (h'.readValue label)
  isLast := h.isLast.trans h'.isLast

theorem answer (h : Carries φ) (k : CursorCall) (s : γ × Client) :
    k.answer (φ s.1, s.2) = k.answer s := by
  rw [CursorCall.answer, CursorCall.answer, h.run k s]
  cases k.run s <;> rfl

theorem after (h : Carries φ) (k : CursorCall) (s : γ × Client) :
    k.after (φ s.1, s.2) = (φ (k.after s).1, (k.after s).2) := by
  rw [CursorCall.after, CursorCall.after, h.run k s]
  cases k.run s <;> rfl

theorem afterAll (h : Carries φ) : ∀ (calls : List CursorCall) (s : γ × Client),
    CursorCall.afterAll (φ s.1, s.2) calls =
      (φ (CursorCall.afterAll s calls).1, (CursorCall.afterAll s calls).2)
  | [], _ => rfl
  | k :: ks, s => by
    rw [afterAll_cons, afterAll_cons, h.after k s]
    exact h.afterAll ks (k.after s)

end Carries

end

/-! ### The wrappings of a statement's cursor -/

theorem BaseCursor.along_record {α : Type} (op : CursorM RecordCursor α)
    (other : CursorM StaticCursor α) : Along BaseCursor.record op (dispatch op other) := by
  rintro ⟨c, cl⟩
  simp only [dispatch]
  cases op (c, cl) <;> rfl

theorem BaseCursor.along_static {α : Type} (other : CursorM RecordCursor α)
    (op : CursorM StaticCursor α) : Along BaseCursor.static op (dispatch other op) := by
  rintro ⟨c, cl⟩
  simp only [dispatch]
  cases op (c, cl) <;> rfl

theorem BaseCursor.carries_record : Carries BaseCursor.record where
  state _ := rfl
  withState _ _ := rfl
  next := along_record _ _
  close := along_record _ _
  metadata := along_record _ _
  readValue _ := along_record _ _
  isLast := along_record _ _

theorem BaseCursor.carries_static : Carries BaseCursor.static where
  state _ := rfl
  withState _ _ := rfl
  next := along_static _ _
  close := along_static _ _
  metadata := along_static _ _
  readValue _ := along_static _ _
  isLast := along_static _ _

theorem Cursor.along_mk {α : Type} (n : Nat) (op : (n : Nat) → CursorM (CursorStack n) α) :
    Along (Cursor.mk n) (op n) (onStack op) := by
  rintro ⟨c, cl⟩
  simp only [onStack]
  cases op n (c, cl) <;> rfl

theorem Cursor.carries_mk (n : Nat) : Carries (Cursor.mk n) where
  state _ := rfl
  withState _ _ := rfl
  next := along_mk n _
  close := along_mk n _
  metadata := along_mk n _
  readValue _ := along_mk n _
  isLast := along_mk n _

/-- A cursor without filters behaves as the record cursor that it is. -/
theorem Cursor.carries_ofRecord : Carries Cursor.ofRecord :=
  BaseCursor.carries_record.trans (Cursor.carries_mk 0)

end KeyedRows
