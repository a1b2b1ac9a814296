/-
# What a stream delivers

The filters before a reader take records out of a stream and leave its
failures where they are, so what the reader is given is a list of events of
its own (`RecordStream.events`). Asking for the next record takes exactly the
first of them (`next_cases`), and nothing at the end.

Key definitions: `RecordStream.events`, `failures`, `records`.
-/
import Mathlib
import KeyedRows.Stream

namespace KeyedRows

/-- The event reaches a reader behind these filters. -/
def reaches (filters : List Filter) : Event → Bool
  | .ok r => passes filters r.bins
  | .error _ => true

/-- The records among events, in order. -/
def records (events : List Event) : List Record :=
  events.filterMap fun
    | .ok r => some r
    | .error _ => none

/-- The failures among events, in order. -/
def failures (events : List Event) : List Error :=
  events.filterMap fun
    | .ok _ => none
    | .error e => some e

@[simp] theorem records_ok_cons (r : Record) (rest : List Event) :
    records (.ok r :: rest) = r :: records rest := rfl

@[simp] theorem records_error_cons (e : Error) (rest : List Event) :
    records (.error e :: rest) = records rest := rfl

@[simp] theorem failures_ok_cons (r : Record) (rest : List Event) :
    failures (.ok r :: rest) = failures rest := rfl

@[simp] theorem failures_error_cons (e : Error) (rest : List Event) :
    failures (.error e :: rest) = e :: failures rest := rfl

namespace RecordStream

/-- What the reader of the stream will be given. -/
def events (s : RecordStream) : List Event := s.pending.filter (reaches s.filters)

/-- A stream of records without filters delivers all of them. -/
theorem events_of_records {s : RecordStream} {rs : List Record} (hs : s.pending = rs.map .ok)
    (hf : s.filters = []) : s.events = rs.map .ok := by
  rw [events, hs, hf]
  refine List.filter_eq_self.mpr fun event hevent => ?_
  obtain ⟨r, -, rfl⟩ := List.mem_map.mp hevent
  rfl

theorem pull_cases (filters : List Filter) : ∀ pending : List Event,
    (pending.filter (reaches filters) = [] ∧ pull filters pending = (.ok none, [])) ∨
    (∃ r rest, pending.filter (reaches filters) = .ok r :: rest.filter (reaches filters) ∧
      pull filters pending = (.ok (some r), rest)) ∨
    (∃ e rest, pending.filter (reaches filters) = .error e :: rest.filter (reaches filters) ∧
      pull filters pending = (.error e, rest))
  | [] => .inl ⟨rfl, rfl⟩
  | .error e :: rest => .inr (.inr ⟨e, rest, List.filter_cons_of_pos rfl, rfl⟩)
  | .ok r :: rest => by
    by_cases h : passes filters r.bins = true
    · exact .inr (.inl ⟨r, rest, by simp [reaches, h], by simp [pull, h]⟩)
    · have hskip : (Except.ok r :: rest : List Event).filter (reaches filters) =
          rest.filter (reaches filters) := by simp [reaches, h]
      have hpull : pull filters (.ok r :: rest) = pull filters rest := by simp [pull, h]
      rw [hskip, hpull]
      exact pull_cases filters rest

/-- **Asking takes the first event, and nothing at the end.** -/
theorem next_cases (s : RecordStream) :
    (s.events = [] ∧ ∃ t, s.next = (.ok none, t) ∧ t.events = []) ∨
    (∃ r t, s.next = (.ok (some r), t) ∧ s.events = .ok r :: t.events) ∨
    (∃ e t, s.next = (.error e, t) ∧ s.events = .error e :: t.events) := by
  unfold next
  rcases pull_cases s.filters s.pending with ⟨h, hp⟩ | ⟨r, rest, h, hp⟩ | ⟨e, rest, h, hp⟩
  · exact .inl ⟨h, _, by rw [hp], rfl⟩
  · exact .inr (.inl ⟨r, { s with pending := rest }, by rw [hp], h⟩)
  · exact .inr (.inr ⟨e, { s with pending := rest }, by rw [hp], h⟩)

end RecordStream
end KeyedRows
