/-
# What the calls of a record cursor change

Every call but the closing keeps what a record cursor was made with, whether it
is closed, what its stream is counted by, and the metadata once there are some
(`stirred_of_call`). A call that asks for no metadata asks the client for nothing
(`still_of_call`), and on a row neither does the question for metadata
(`metadata_onRow`).

Key definitions: `Leads`, `Stirred`, `Still`, `Consults`.
-/
import KeyedRows.Proofs.Cursor.Record

namespace KeyedRows

open CursorM CursorCall

/-! ### Relations that calls obey -/

section

variable {σ α β : Type}

/-- What runs takes every state to a related one, whether it gives a result or
fails. -/
def Leads (R : σ → σ → Prop) (op : EStateM Error σ α) : Prop := ∀ s, R s (leaves op s)

variable {R S : σ → σ → Prop}

theorem leads_pure [Std.Refl R] (a : α) : Leads R (pure a : EStateM Error σ α) :=
  fun s => refl_of R s

theorem leads_throw [Std.Refl R] (e : Error) : Leads R (throw e : EStateM Error σ α) :=
  fun s => refl_of R s

theorem leads_ofExcept [Std.Refl R] : ∀ x : Except Error α,
    Leads R (ofExcept x : EStateM Error σ α)
  | .ok a => leads_pure a
  | .error e => leads_throw e

/-- What follows leads on from wherever the first part led. -/
theorem Leads.before [Std.Refl S] {x : EStateM Error σ α} {f : α → EStateM Error σ β}
    (hx : Leads R x) (hf : ∀ a, Leads S (f a)) (hrest : ∀ s t u, R s t → S t u → S s u) :
    Leads S (x >>= f) := by
  intro s
  have hs := hx s
  simp only [leaves, bind, EStateM.bind] at hs ⊢
  cases hrun : x s with
  | error e t =>
    rw [hrun] at hs
    exact hrest s t t hs (refl_of S t)
  | ok a t =>
    rw [hrun] at hs
    exact hrest s t _ hs (hf a t)

theorem Leads.bind [Std.Refl R] [IsTrans σ R] {x : EStateM Error σ α}
    {f : α → EStateM Error σ β} (hx : Leads R x) (hf : ∀ a, Leads R (f a)) :
    Leads R (x >>= f) :=
  hx.before hf fun _ _ _ => trans_of R

end

section

variable {γ : Type} {R : γ × Client → γ × Client → Prop}

theorem leads_change {f : γ → γ} (hf : ∀ c cl, R (c, cl) (f c, cl)) : Leads R (change f) :=
  fun s => hf s.1 s.2

theorem leads_cursor [Std.Refl R] : Leads R (cursor : CursorM γ γ) := fun s => refl_of R s

theorem Leads.after [RowCursor γ] {k : CursorCall} (h : Leads R k.run) (s : γ × Client) :
    R s (k.after s) := by
  rw [k.after_eq]
  exact h s

end

theorem RecordStream.next_accounts (s : RecordStream) :
    s.next.2.counted = s.counted ∧ s.next.2.closings = s.closings := ⟨rfl, rfl⟩

namespace RecordCursor

/-! ### The parts of the calls -/

section

variable {R : RecordCursor × Client → RecordCursor × Client → Prop} [Std.Refl R] [IsTrans _ R]

theorem leads_askFallback
    (hclient : ∀ c cl home, R (c, cl) (c, leaves (Client.anyRecord home) cl))
    (hlisted : ∀ c cl rest, R (c, cl) ({ c with fallback := .listed rest }, cl)) :
    Leads R askFallback := by
  refine leads_cursor.bind fun c => ?_
  cases c.fallback with
  | nowhere => exact leads_pure _
  | anyRecord home =>
    rintro ⟨d, cl⟩
    have hasked := hclient d cl home
    unfold leaves at hasked ⊢
    simp only [onClient]
    cases hrun : Client.anyRecord home cl <;> rw [hrun] at hasked <;> exact hasked
  | listed answers =>
    cases answers with
    | nil => exact leads_pure _
    | cons answer rest =>
      exact Leads.bind (leads_change fun d cl => hlisted d cl rest) fun _ =>
        (leads_ofExcept _).bind fun _ => leads_pure _

/-- What looking ahead, asking elsewhere and keeping metadata lead to, the question for
metadata leads to. -/
theorem leads_getMetadata (hpeek : Leads R peek) (hask : Leads R askFallback)
    (hkeep : ∀ c cl m, R (c, cl) ({ c with metadata := some m }, cl)) : Leads R getMetadata := by
  have hsample : Leads R sample := by
    refine leads_cursor.bind fun c => ?_
    cases c.current with
    | some r => exact leads_pure _
    | none =>
      simp only
      split_ifs
      · exact hask
      · refine hpeek.bind fun r => ?_
        cases r with
        | some r => exact leads_pure _
        | none => exact hask
  have hcompute : Leads R computeMetadata := by
    refine leads_cursor.bind fun c => ?_
    split_ifs
    · exact leads_pure _
    · exact hsample.bind fun _ => leads_pure _
  refine leads_cursor.bind fun c => (leads_ofExcept _).bind fun _ => ?_
  cases c.metadata with
  | some m => exact leads_pure _
  | none =>
    exact hcompute.bind fun m => Leads.bind (leads_change fun d cl => hkeep d cl m) fun _ =>
      leads_pure _

theorem leads_isLast (hpeek : Leads R peek) : Leads R isLast := by
  refine leads_cursor.bind fun c => (leads_ofExcept _).bind fun _ => ?_
  split_ifs
  · exact leads_pure _
  · exact hpeek.bind fun _ => leads_pure _

end

/-! ### What is kept -/

/-- The second cursor has what the first was made with, is closed if the first
is, and has told its stream to close as often; metadata that the first keeps it
keeps too. -/
structure Stirred (c d : RecordCursor) : Prop where
  home : d.home = c.home
  columns : d.columns = c.columns
  settings : d.settings = c.settings
  closed : d.state.closed = c.state.closed
  counted : d.stream.counted = c.stream.counted
  closings : d.stream.closings = c.stream.closings
  fallback : ∀ home, c.fallback = .anyRecord home → d.fallback = .anyRecord home
  metadata : ∀ m, c.metadata = some m → d.metadata = some m

/-- The client was asked for nothing, and no metadata were made. -/
structure Still (s t : RecordCursor × Client) : Prop extends Stirred s.1 t.1 where
  sameMetadata : t.1.metadata = s.1.metadata
  sameClient : t.2 = s.2

/-- The client was asked for a record of some set, or for nothing. -/
def AsksOnce (cl cl' : Client) : Prop :=
  cl' = cl ∨ ∃ home, cl' = leaves (Client.anyRecord home) cl

/-- The client was asked at most once, and no metadata are kept yet. -/
structure Consults (s t : RecordCursor × Client) : Prop extends Stirred s.1 t.1 where
  sameMetadata : t.1.metadata = s.1.metadata
  client : AsksOnce s.2 t.2

theorem Stirred.refl (c : RecordCursor) : Stirred c c :=
  ⟨rfl, rfl, rfl, rfl, rfl, rfl, fun _ h => h, fun _ h => h⟩

theorem Stirred.trans {b c d : RecordCursor} (h : Stirred b c) (k : Stirred c d) : Stirred b d :=
  ⟨k.home.trans h.home, k.columns.trans h.columns, k.settings.trans h.settings,
    k.closed.trans h.closed, k.counted.trans h.counted, k.closings.trans h.closings,
    fun home hf => k.fallback home (h.fallback home hf),
    fun m hm => k.metadata m (h.metadata m hm)⟩

instance : Std.Refl Still := ⟨fun s => ⟨.refl s.1, rfl, rfl⟩⟩

instance : IsTrans _ Still :=
  ⟨fun _ _ _ h k => ⟨h.toStirred.trans k.toStirred, k.sameMetadata.trans h.sameMetadata,
    k.sameClient.trans h.sameClient⟩⟩

instance : Std.Refl Consults := ⟨fun s => ⟨.refl s.1, rfl, .inl rfl⟩⟩

theorem Still.consults {s t u : RecordCursor × Client} (h : Still s t) (k : Consults t u) :
    Consults s u :=
  ⟨h.toStirred.trans k.toStirred, k.sameMetadata.trans h.sameMetadata, h.sameClient ▸ k.client⟩

/-- A change of where the cursor stands and of what lies ahead. -/
theorem leads_still {f : RecordCursor → RecordCursor} (hf : ∀ c, Stirred c (f c))
    (hm : ∀ c, (f c).metadata = c.metadata) : Leads Still (change f) :=
  leads_change fun c _ => ⟨hf c, hm c, rfl⟩

/-! ### What asks for nothing -/

theorem still_fetch : Leads Still fetch := by
  rintro ⟨c, cl⟩
  have haccounts := c.stream.next_accounts
  simp only [leaves, fetch]
  cases c.replay with
  | some r => exact ⟨⟨rfl, rfl, rfl, rfl, rfl, rfl, fun _ h => h, fun _ h => h⟩, rfl, rfl⟩
  | none =>
    simp only
    split_ifs
    · exact refl_of Still _
    · rcases hn : c.stream.next with ⟨_ | (_ | r), t⟩ <;> rw [hn] at haccounts <;>
        exact ⟨⟨rfl, rfl, rfl, rfl, haccounts.1, haccounts.2, fun _ h => h, fun _ h => h⟩, rfl, rfl⟩

theorem still_peek : Leads Still peek := by
  refine leads_cursor.bind fun c => ?_
  cases c.replay with
  | some r => exact leads_pure _
  | none =>
    refine still_fetch.bind fun r => Leads.bind (leads_still ?_ ?_) fun _ => leads_pure r
    · exact fun _ => ⟨rfl, rfl, rfl, rfl, rfl, rfl, fun _ h => h, fun _ h => h⟩
    · exact fun _ => rfl

theorem still_next : Leads Still next := by
  refine leads_cursor.bind fun c => (leads_ofExcept _).bind fun _ => ?_
  split_ifs
  · exact leads_pure _
  · refine still_fetch.bind fun r => ?_
    cases r with
    | some r =>
      refine Leads.bind (leads_still ?_ ?_) fun _ => leads_pure _
      · exact fun _ => ⟨rfl, rfl, rfl, rfl, rfl, rfl, fun _ h => h, fun _ h => h⟩
      · exact fun _ => rfl
    | none =>
      refine Leads.bind (leads_still ?_ ?_) fun _ => leads_pure _
      · exact fun _ => ⟨rfl, rfl, rfl, rfl, rfl, rfl, fun _ h => h, fun _ h => h⟩
      · exact fun _ => rfl

/-- **Only the closing and asking for metadata do more than move, read and look
ahead.** -/
theorem still_of_call {k : CursorCall} (hclose : k ≠ .close) (hk : k.asksMetadata = false)
    (s : RecordCursor × Client) : Still s (k.after s) := by
  have hread (label : String) : Leads Still (CursorCall.readValue label).run :=
    leads_cursor.bind fun _ => leads_ofExcept _
  have hnext : Leads Still CursorCall.next.run := still_next
  have hlast : Leads Still CursorCall.isLast.run := leads_isLast still_peek
  refine RowCursor.leads_of_own (refl_of Still) (trans_of Still) hclose (hnext.after s) ?_
    (hlast.after s) (fun label => (hread label).after s) fun t st hst => ?_
  · simp [hk]
  · exact ⟨⟨rfl, rfl, rfl, hst, rfl, rfl, fun _ h => h, fun _ h => h⟩, rfl, rfl⟩

/-! ### What asking for metadata changes -/

theorem consults_askFallback : Leads Consults askFallback := by
  rintro ⟨c, cl⟩
  simp only [leaves, askFallback, bind_apply, cursor_apply]
  cases hf : c.fallback with
  | nowhere => exact refl_of Consults _
  | anyRecord home =>
    have hasked : AsksOnce cl (leaves (Client.anyRecord home) cl) := .inr ⟨home, rfl⟩
    simp only [onClient]
    unfold leaves at hasked
    cases hrun : Client.anyRecord home cl <;> rw [hrun] at hasked <;>
      exact ⟨.refl c, rfl, hasked⟩
  | listed answers =>
    cases answers with
    | nil => exact refl_of Consults _
    | cons answer rest =>
      -- the list of answers is no set, so what is kept of the fallback does not apply
      have hrest : Stirred c { c with fallback := .listed rest } := by
        refine ⟨rfl, rfl, rfl, rfl, rfl, rfl, fun _ h => ?_, fun _ h => h⟩
        cases hf.symm.trans h
      cases answer <;> exact ⟨hrest, rfl, .inl rfl⟩

theorem consults_sample : Leads Consults sample := by
  have hcursor : Leads Still (cursor : CursorM RecordCursor RecordCursor) := leads_cursor
  refine hcursor.before (fun c => ?_) fun _ _ _ => Still.consults
  cases c.current with
  | some r => exact leads_pure _
  | none =>
    simp only
    split_ifs
    · exact consults_askFallback
    · refine still_peek.before (fun r => ?_) fun _ _ _ => Still.consults
      cases r with
      | some r => exact leads_pure _
      | none => exact consults_askFallback

theorem consults_computeMetadata : Leads Consults computeMetadata := by
  have hcursor : Leads Still (cursor : CursorM RecordCursor RecordCursor) := leads_cursor
  refine hcursor.before (fun c => ?_) fun _ _ _ => Still.consults
  split_ifs
  · exact leads_pure _
  · intro s
    have hs := consults_sample s
    simp only [leaves, bind_apply] at hs ⊢
    cases hrun : sample s <;> rw [hrun] at hs <;> exact hs

/-- Asking an open cursor for metadata: those that it keeps are given again, and
otherwise those that it makes are kept. -/
theorem metadata_cases {c : RecordCursor} (h : c.state.closed = false) (cl : Client) :
    (∃ m, c.metadata = some m ∧ getMetadata (c, cl) = .ok m (c, cl)) ∨
    (∃ m t, c.metadata = none ∧ computeMetadata (c, cl) = .ok m t ∧
      getMetadata (c, cl) = .ok m ({ t.1 with metadata := some m }, t.2)) ∨
    (∃ e t, c.metadata = none ∧ computeMetadata (c, cl) = .error e t ∧
      getMetadata (c, cl) = .error e t) := by
  unfold getMetadata
  simp only [bind_apply, cursor_apply, CursorState.ensureOpen, h, Bool.false_eq_true, if_false,
    ofExcept_ok]
  cases c.metadata with
  | some m => exact .inl ⟨m, rfl, rfl⟩
  | none =>
    cases hm : computeMetadata (c, cl) with
    | ok m t => exact .inr (.inl ⟨m, t, rfl, rfl, by simp only [bind_apply, hm]; rfl⟩)
    | error e t => exact .inr (.inr ⟨e, t, rfl, rfl, by simp only [bind_apply, hm]⟩)

/-- The metadata that an open cursor answers with are kept. -/
theorem kept_of_answered {c : RecordCursor} {cl : Client} {m : ResultMetadata}
    (h : c.state.closed = false) (hm : CursorCall.metadata.answer (c, cl) = .ok m) :
    (CursorCall.metadata.after (c, cl)).1.metadata = some m := by
  have hrun : CursorCall.metadata.run (c, cl) = getMetadata (c, cl) := rfl
  rcases metadata_cases h cl with ⟨m', hkept, hr⟩ | ⟨m', t, -, -, hr⟩ | ⟨e, t, -, -, hr⟩
  · rw [answer_ok (hrun.trans hr)] at hm
    cases hm
    rw [after_ok (hrun.trans hr)]
    exact hkept
  · rw [answer_ok (hrun.trans hr)] at hm
    cases hm
    rw [after_ok (hrun.trans hr)]
  · rw [answer_error (hrun.trans hr)] at hm
    cases hm

/-- The metadata that are kept an open cursor answers with. -/
theorem answered_of_kept {c : RecordCursor} {m : ResultMetadata} (h : c.state.closed = false)
    (hm : c.metadata = some m) (cl : Client) : CursorCall.metadata.answer (c, cl) = .ok m := by
  have hrun : CursorCall.metadata.run (c, cl) = getMetadata (c, cl) := rfl
  rcases metadata_cases h cl with ⟨m', hkept, hr⟩ | ⟨m', t, hnone, -, -⟩ | ⟨e, t, hnone, -, -⟩
  · rw [answer_ok (hrun.trans hr)]
    cases hkept.symm.trans hm
    rfl
  · cases hnone.symm.trans hm
  · cases hnone.symm.trans hm

/-- Keeping metadata where there were none disturbs nothing else. -/
theorem Stirred.keep {c d : RecordCursor} (h : Stirred c d) (hnone : c.metadata = none)
    (m : ResultMetadata) : Stirred c { d with metadata := some m } where
  home := h.home
  columns := h.columns
  settings := h.settings
  closed := h.closed
  counted := h.counted
  closings := h.closings
  fallback := h.fallback
  metadata _ hm := by cases hnone.symm.trans hm

/-- Whatever is asked for metadata, at most one record is asked for. -/
theorem metadata_stirred (s : RecordCursor × Client) :
    Stirred s.1 (CursorCall.metadata.after s).1 ∧ AsksOnce s.2 (CursorCall.metadata.after s).2 := by
  obtain ⟨c, cl⟩ := s
  have hrun : CursorCall.metadata.run (c, cl) = getMetadata (c, cl) := rfl
  cases hclosed : c.state.closed with
  | true =>
    rw [after_error (hrun.trans (getMetadata_closed hclosed cl))]
    exact ⟨.refl c, .inl rfl⟩
  | false =>
    have hmade := consults_computeMetadata (c, cl)
    rcases metadata_cases hclosed cl with ⟨m, -, hm⟩ | ⟨m, t, hnone, hc, hm⟩ | ⟨e, t, -, hc, hm⟩
    · rw [after_ok (hrun.trans hm)]
      exact ⟨.refl c, .inl rfl⟩
    · rw [leaves_ok hc] at hmade
      rw [after_ok (hrun.trans hm)]
      exact ⟨hmade.toStirred.keep hnone m, hmade.client⟩
    · rw [leaves_error hc] at hmade
      rw [after_error (hrun.trans hm)]
      exact ⟨hmade.toStirred, hmade.client⟩

/-- **What every call but the closing keeps.** -/
theorem stirred_of_call {k : CursorCall} (hclose : k ≠ .close) (s : RecordCursor × Client) :
    Stirred s.1 (k.after s).1 ∧ AsksOnce s.2 (k.after s).2 := by
  cases hk : k.asksMetadata with
  | false =>
    have hstill := still_of_call hclose hk s
    exact ⟨hstill.toStirred, .inl hstill.sameClient⟩
  | true =>
    rw [RowCursor.asks_after hk]
    exact metadata_stirred s

/-- On a row the record of the row is sampled. -/
theorem computeMetadata_onRow {c : RecordCursor} (h : c.current.isSome = true) (cl : Client) :
    ∃ m, computeMetadata (c, cl) = .ok m (c, cl) := by
  obtain ⟨r, hr⟩ := Option.isSome_iff_exists.mp h
  have hsample : sample (c, cl) = .ok (some r) (c, cl) := by
    simp only [sample, bind_apply, cursor_apply, hr]
    rfl
  unfold computeMetadata
  simp only [bind_apply, cursor_apply]
  split_ifs
  · exact ⟨_, rfl⟩
  · simp only [bind_apply, hsample]
    exact ⟨_, rfl⟩

/-- On a row the client is not asked, and the row stays. -/
theorem metadata_onRow {s : RecordCursor × Client} (h : s.1.current.isSome = true) :
    (CursorCall.metadata.after s).1.current = s.1.current ∧
      (CursorCall.metadata.after s).2 = s.2 := by
  obtain ⟨c, cl⟩ := s
  have hrun : CursorCall.metadata.run (c, cl) = getMetadata (c, cl) := rfl
  cases hclosed : c.state.closed with
  | true =>
    rw [after_error (hrun.trans (getMetadata_closed hclosed cl))]
    exact ⟨rfl, rfl⟩
  | false =>
    obtain ⟨m', hmade⟩ := computeMetadata_onRow h cl
    rcases metadata_cases hclosed cl with ⟨m, -, hm⟩ | ⟨m, t, -, hc, hm⟩ | ⟨e, t, -, hc, hm⟩
    · rw [after_ok (hrun.trans hm)]
      exact ⟨rfl, rfl⟩
    · rw [hmade] at hc
      cases hc
      rw [after_ok (hrun.trans hm)]
      exact ⟨rfl, rfl⟩
    · rw [hmade] at hc
      cases hc

end RecordCursor
end KeyedRows
