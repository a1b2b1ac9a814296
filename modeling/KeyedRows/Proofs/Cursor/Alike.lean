/-
# Cursors that answer alike

Cursors of two kinds go in step if, from related cursors, the calls that each kind
has of its own give the same and lead to related cursors again (`KeepsStep`). Then
all calls do so that read nothing (`KeepsStep.run`), and of those that read the ones
whose getters do. What goes in step answers alike, whatever is called
(`sameAnswers_of_inStep`).

Key definitions: `InStep`, `KeepsStep`, `SameAnswers`.
-/
import KeyedRows.Proofs.Cursor.States

namespace KeyedRows

open CursorM CursorCall

/-- The second state stands where the first does. -/
structure CursorState.Stays (s t : CursorState) : Prop where
  position : t.position = s.position
  done : t.done = s.done
  closed : t.closed = s.closed

section

variable {γ δ α β : Type}

/-- Both gave the same, and the cursors that are left are related. -/
def Agree (R : γ → δ → Prop) :
    EStateM.Result Error (γ × Client) α → EStateM.Result Error (δ × Client) α → Prop
  | .ok a s, .ok b t => a = b ∧ R s.1 t.1
  | .error e s, .error e' t => e = e' ∧ R s.1 t.1
  | _, _ => False

/-- From related cursors both calls give the same and leave related ones. -/
def InStep (R : γ → δ → Prop) (op : CursorM γ α) (op' : CursorM δ α) : Prop :=
  ∀ s t, R s.1 t.1 → Agree R (op s) (op' t)

variable {R : γ → δ → Prop}

theorem inStep_pure (a : α) : InStep R (pure a) (pure a) := fun _ _ h => ⟨rfl, h⟩

theorem inStep_throw (e : Error) : InStep R (throw e : CursorM γ α) (throw e) :=
  fun _ _ h => ⟨rfl, h⟩

theorem inStep_ofExcept : ∀ x : Except Error α,
    InStep R (ofExcept x : CursorM γ α) (ofExcept x)
  | .ok a => inStep_pure a
  | .error e => inStep_throw e

theorem InStep.bind {op : CursorM γ α} {op' : CursorM δ α} {f : α → CursorM γ β}
    {g : α → CursorM δ β} (h : InStep R op op') (hf : ∀ a, InStep R (f a) (g a)) :
    InStep R (op >>= f) (op' >>= g) := by
  intro s t hst
  have hagree := h s t hst
  rw [bind_apply, bind_apply]
  cases hs : op s with
  | ok a u =>
    cases ht : op' t with
    | ok b v =>
      rw [hs, ht] at hagree
      obtain ⟨rfl, hrel⟩ := hagree
      exact hf a u v hrel
    | error e v =>
      rw [hs, ht] at hagree
      exact hagree.elim
  | error e u =>
    cases ht : op' t with
    | ok b v =>
      rw [hs, ht] at hagree
      exact hagree.elim
    | error e' v =>
      rw [hs, ht] at hagree
      exact hagree

variable [RowCursor γ] [RowCursor δ]

/-- Related cursors have one state, and the calls that each kind has of its own go in
step, the reading apart. -/
structure KeepsStep (R : γ → δ → Prop) : Prop where
  state : ∀ {c d}, R c d → RowCursor.state c = RowCursor.state d
  withState : ∀ {c d}, R c d → ∀ st, (RowCursor.state c).Stays st →
    R (RowCursor.withState c st) (RowCursor.withState d st)
  next : InStep R RowCursor.next RowCursor.next
  close : InStep R RowCursor.close RowCursor.close
  metadata : InStep R RowCursor.metadata RowCursor.metadata
  isLast : InStep R RowCursor.isLast RowCursor.isLast

namespace KeepsStep

theorem getState (h : KeepsStep R) : InStep R RowCursor.getState RowCursor.getState :=
  fun _ _ hst => ⟨h.state hst, hst⟩

theorem onState (h : KeepsStep R) {f : CursorState → CursorState} (hf : ∀ st : CursorState, st.Stays (f st)) :
    InStep R (RowCursor.onState f) (RowCursor.onState f) := by
  intro s t hst
  refine ⟨rfl, ?_⟩
  simp only [← h.state hst]
  exact h.withState hst _ (hf _)

theorem ensureOpen (h : KeepsStep R) : InStep R RowCursor.ensureOpen RowCursor.ensureOpen :=
  h.getState.bind fun _ => inStep_ofExcept _

/-- **Every call goes in step** that does not read, or whose getter does. -/
theorem run (h : KeepsStep R) {k : CursorCall} (hread : ∀ label, k ≠ .readValue label)
    (hget : ∀ label, k.getter? = some label →
      InStep R (RowCursor.getObject label) (RowCursor.getObject label)) :
    InStep R k.run k.run := by
  cases k with
  | next => exact h.next
  | first =>
    refine h.ensureOpen.bind fun _ => h.getState.bind fun st => ?_
    cases st.isBeforeFirst with
    | true => exact h.next
    | false => exact inStep_throw _
  | close => exact h.close
  | metadata => exact h.metadata
  | findColumn label => exact h.metadata.bind fun _ => inStep_ofExcept _
  | isLast => exact h.isLast
  | readValue label => exact absurd rfl (hread label)
  | getObject label => exact hget label rfl
  | get α label => exact (hget label rfl).bind fun _ => inStep_ofExcept _
  | setFetchDirection d =>
    refine h.ensureOpen.bind fun _ => ?_
    split
    · exact h.onState fun _ => ⟨rfl, rfl, rfl⟩
    · exact inStep_pure ()
  | setFetchSize rows =>
    simp only [CursorCall.run, RowCursor.setFetchSize]
    split
    · exact inStep_pure ()
    · exact inStep_throw _
  | clearWarnings => exact h.onState fun _ => ⟨rfl, rfl, rfl⟩
  | scroll m => exact inStep_throw _
  | state => exact h.getState

end KeepsStep

/-! ### Sequences of calls -/

/-- Both cursors answer alike, call after call. -/
def SameAnswers (s : γ × Client) (t : δ × Client) : List CursorCall → Prop
  | [] => True
  | k :: ks => k.answer s = k.answer t ∧ SameAnswers (k.after s) (k.after t) ks

variable {s : γ × Client} {t : δ × Client} {k : CursorCall}

theorem InStep.answer (h : InStep R k.run k.run) (hst : R s.1 t.1) :
    k.answer s = k.answer t ∧ R (k.after s).1 (k.after t).1 := by
  have hagree := h s t hst
  unfold CursorCall.answer CursorCall.after
  cases hs : k.run s with
  | ok a u =>
    cases ht : k.run t with
    | ok b v =>
      rw [hs, ht] at hagree
      exact ⟨congrArg Except.ok hagree.1, hagree.2⟩
    | error e v =>
      rw [hs, ht] at hagree
      exact hagree.elim
  | error e u =>
    cases ht : k.run t with
    | ok b v =>
      rw [hs, ht] at hagree
      exact hagree.elim
    | error e' v =>
      rw [hs, ht] at hagree
      exact ⟨congrArg Except.error hagree.1, hagree.2⟩

/-- Calls that go in step leave related cursors. -/
theorem related_afterAll : ∀ (calls : List CursorCall) {s : γ × Client} {t : δ × Client},
    R s.1 t.1 → (∀ k ∈ calls, InStep R k.run k.run) → R (afterAll s calls).1 (afterAll t calls).1
  | [], _, _, hst, _ => hst
  | k :: ks, s, t, hst, h => by
    have hafter : R (k.after s).1 (k.after t).1 := ((h k List.mem_cons_self).answer hst).2
    rw [afterAll_cons, afterAll_cons]
    exact related_afterAll ks hafter fun k' hk' => h k' (List.mem_cons_of_mem _ hk')

/-- **Calls that go in step are answered alike.** -/
theorem sameAnswers_of_inStep : ∀ (calls : List CursorCall) {s : γ × Client} {t : δ × Client},
    R s.1 t.1 → (∀ k ∈ calls, InStep R k.run k.run) → SameAnswers s t calls
  | [], _, _, _, _ => trivial
  | k :: ks, s, t, hst, h => by
    obtain ⟨hanswer, hafter⟩ := (h k List.mem_cons_self).answer hst
    exact ⟨hanswer, sameAnswers_of_inStep ks hafter fun k' hk' => h k' (List.mem_cons_of_mem _ hk')⟩

/-- The last of calls that are answered alike is. -/
theorem SameAnswers.last : ∀ (calls : List CursorCall) {s : γ × Client} {t : δ × Client},
    SameAnswers s t (calls ++ [k]) → k.answer (afterAll s calls) = k.answer (afterAll t calls)
  | [], _, _, h => h.1
  | k' :: ks, s, t, h => by
    rw [afterAll_cons, afterAll_cons]
    exact SameAnswers.last ks h.2

end

end KeyedRows
