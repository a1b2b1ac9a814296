/-
# What asking for metadata costs

A record cursor that is asked for metadata samples the record of its row, or the
record that comes next. Only if it lacks both, and a column says too little about
itself, does it ask the client for a record of its set (`metadata_costs`), and
then the metadata are made, so it does not ask again.

Key definitions: `Lacks`.
Key theorem: **`metadata_costs`**.
-/
import KeyedRows.Proofs.Cursor.Closed
import KeyedRows.Proofs.Store.Client

namespace KeyedRows
namespace RecordCursor

open CursorM CursorCall

/-- Metadata cannot be told without a record from elsewhere: they were not made,
some column needs a sample, no row is current and none is left. -/
structure Lacks (c : RecordCursor) : Prop where
  needs : c.columns.any Column.needsSample = true
  unmade : c.metadata = none
  offRow : c.current = none
  ended : c.ahead = []

variable {c : RecordCursor} {cl : Client} {home : SetAddress}

/-- A record of the set is one call away. -/
theorem askFallback_eq (hf : c.fallback = .anyRecord home) (hcl : cl.Obliging) :
    ∃ r, askFallback (c, cl) = .ok r (c, cl.served (.anyRecord home)) := by
  obtain ⟨r, hr⟩ := hcl.call_eq (.anyRecord home)
  refine ⟨r, ?_⟩
  unfold askFallback
  simp only [bind_apply, cursor_apply, hf, onClient, Client.anyRecord, hr]

/-- Sampling costs a call where there is no record to sample. -/
theorem sample_costs (h : WellPlaced c) (hf : c.fallback = .anyRecord home)
    (hcl : cl.Obliging) :
    (c.current = none ∧ c.ahead = [] ∧
      ∃ r d, sample (c, cl) = .ok r (d, cl.served (.anyRecord home))) ∨
    (¬ (c.current = none ∧ c.ahead = []) ∧ (leaves sample (c, cl)).2 = cl) := by
  rcases sample_cases h cl with ⟨r, hr, hs⟩ |
      ⟨hnone, d, hl, hfd, ⟨r, hhead, hs⟩ | ⟨hnil, hs⟩⟩ | ⟨hnone, e, d, ht, hs⟩
  · refine .inr ⟨fun hno => ?_, by rw [leaves_ok hs]⟩
    rw [hr] at hno
    cases hno.1
  · refine .inr ⟨fun hno => ?_, by rw [leaves_ok hs]⟩
    rw [hno.2] at hhead
    cases hhead
  · obtain ⟨r, hr⟩ := askFallback_eq (hfd.trans hf) hcl
    exact .inl ⟨hnone, hnil, r, d, hs.trans hr⟩
  · refine .inr ⟨fun hno => ?_, by rw [leaves_error hs]⟩
    have hahead := ht.ahead
    rw [hno.2] at hahead
    cases hahead

/-- Making metadata costs a call where a sample is needed and costs one. -/
theorem computeMetadata_costs (h : WellPlaced c) (hf : c.fallback = .anyRecord home)
    (hcl : cl.Obliging) :
    (c.columns.any Column.needsSample = true ∧ c.current = none ∧ c.ahead = [] ∧
      ∃ m d, computeMetadata (c, cl) = .ok m (d, cl.served (.anyRecord home))) ∨
    (¬ (c.columns.any Column.needsSample = true ∧ c.current = none ∧ c.ahead = []) ∧
      (leaves computeMetadata (c, cl)).2 = cl) := by
  unfold leaves computeMetadata
  simp only [bind_apply, cursor_apply]
  split_ifs with hneeds
  · refine .inr ⟨fun hno => ?_, rfl⟩
    rw [hno.1] at hneeds
    cases hneeds
  · have hneeds : c.columns.any Column.needsSample = true := by simpa using hneeds
    rcases sample_costs h hf hcl with ⟨hnone, hnil, r, d, hs⟩ | ⟨hno, hs⟩
    · simp only [bind_apply, hs]
      exact .inl ⟨hneeds, hnone, hnil, _, d, rfl⟩
    · refine .inr ⟨fun hall => hno hall.2, ?_⟩
      unfold leaves at hs
      simp only [bind_apply]
      cases hrun : sample (c, cl) <;> rw [hrun] at hs <;> exact hs

/-- **Asking for metadata costs one call if they lack a record**, and none
otherwise. What was asked for is not asked for again. -/
theorem metadata_costs (h : WellPlaced c) (hf : c.fallback = .anyRecord home)
    (hcl : cl.Obliging) :
    (c.Lacks ∧ (CursorCall.metadata.after (c, cl)).2 = cl.served (.anyRecord home) ∧
      (CursorCall.metadata.after (c, cl)).1.metadata.isSome = true) ∨
    (¬ c.Lacks ∧ (CursorCall.metadata.after (c, cl)).2 = cl) := by
  have hrun : CursorCall.metadata.run (c, cl) = getMetadata (c, cl) := rfl
  rcases metadata_cases h.isOpen cl with ⟨m, hmade, hm⟩ | ⟨m, t, hnone, hc, hm⟩ |
      ⟨e, t, hnone, hc, hm⟩
  · refine .inr ⟨fun hlacks => ?_, by rw [after_ok (hrun.trans hm)]⟩
    rw [hlacks.unmade] at hmade
    cases hmade
  · rw [after_ok (hrun.trans hm)]
    rcases computeMetadata_costs h hf hcl with ⟨hneeds, hrow, hnil, m', d, hc'⟩ | ⟨hno, hsame⟩
    · rw [hc] at hc'
      cases hc'
      exact .inl ⟨⟨hneeds, hnone, hrow, hnil⟩, rfl, rfl⟩
    · rw [leaves_ok hc] at hsame
      exact .inr ⟨fun hlacks => hno ⟨hlacks.needs, hlacks.offRow, hlacks.ended⟩, hsame⟩
  · rw [after_error (hrun.trans hm)]
    rcases computeMetadata_costs h hf hcl with ⟨-, -, -, m', d, hc'⟩ | ⟨hno, hsame⟩
    · rw [hc] at hc'
      cases hc'
    · rw [leaves_error hc] at hsame
      exact .inr ⟨fun hlacks => hno ⟨hlacks.needs, hlacks.offRow, hlacks.ended⟩, hsame⟩

end RecordCursor
end KeyedRows
