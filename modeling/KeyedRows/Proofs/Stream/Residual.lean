/-
# Filters behind a stream lose nothing

Behind filters, a reader asks the stream inside until it is at its end, fails, or
delivers a record that passes (`next_restrict`): one call asks finitely often
(`asks_next`), and each asking takes one event. A failure ends the call and not the
stream, so the next call goes on after it, and what the reader is told is the
sequence of the stream inside without the records that are refused
(`events_filtered`, `answers_eq`). Closing drops what is pending.

Key definitions: `StreamCall`, `RecordStream.answers`, `told`, `Asks`.
Key theorem: **`filtered_stream_loses_nothing`**.
-/
import KeyedRows.Proofs.Stream

namespace KeyedRows

/-- What a reader is told: a record, the end, or a failure. -/
abbrev Told := Except Error (Option Record)

/-- What a reader asks of a stream. -/
inductive StreamCall where
  | next
  | close
deriving DecidableEq

/-- The stream after a call. -/
def StreamCall.after : StreamCall → RecordStream → RecordStream
  | .next, s => s.next.2
  | .close, s => s.release

/-- The first so many answers of a stream with these events: each event in its
turn, then the end again and again. -/
def told (events : List Event) (n : ℕ) : List Told :=
  (events.take n).map (·.map some) ++ List.replicate (n - events.length) (.ok none)

/-- What the next answer is, with these events to come. -/
def toldFirst : List Event → Told
  | [] => .ok none
  | event :: _ => event.map some

theorem told_succ (events : List Event) (n : ℕ) :
    told events (n + 1) = toldFirst events :: told events.tail n := by
  cases events with
  | nil => simp [told, toldFirst, List.replicate_succ]
  | cons event rest => simp [told, toldFirst]

namespace RecordStream

/-- The stream after calls. -/
def afterAll (s : RecordStream) (calls : List StreamCall) : RecordStream :=
  calls.foldl (fun s k => k.after s) s

/-- What the reader is told, one answer for every time that it asks for a
record. -/
def answers : RecordStream → List StreamCall → List Told
  | _, [] => []
  | s, .next :: calls => s.next.1 :: s.next.2.answers calls
  | s, .close :: calls => s.release.answers calls

/-! ### One stream -/

theorem next_fst (s : RecordStream) : s.next.1 = toldFirst s.events := by
  rcases s.next_cases with ⟨h, t, ht, -⟩ | ⟨r, t, ht, h⟩ | ⟨e, t, ht, h⟩ <;> rw [ht, h] <;> rfl

theorem events_next (s : RecordStream) : s.next.2.events = s.events.tail := by
  rcases s.next_cases with ⟨h, t, ht, hend⟩ | ⟨r, t, ht, h⟩ | ⟨e, t, ht, h⟩
  · rw [ht, h, hend, List.tail_nil]
  · rw [ht, h, List.tail_cons]
  · rw [ht, h, List.tail_cons]

theorem events_release (s : RecordStream) : s.release.events = [] := rfl

/-- A stream without events is at its end, whatever is asked. -/
theorem answers_of_ended : ∀ (calls : List StreamCall) {s : RecordStream}, s.events = [] →
    s.answers calls = List.replicate (calls.count .next) (.ok none)
  | [], _, _ => rfl
  | .next :: calls, s, h => by
    have hnext : s.next.2.events = [] := by rw [events_next, h, List.tail_nil]
    rw [answers, next_fst, h, answers_of_ended calls hnext, List.count_cons_self,
      List.replicate_succ]
    rfl
  | .close :: calls, s, _ => by
    rw [answers, answers_of_ended calls s.events_release, List.count_cons_of_ne (by decide)]

/-- **A stream tells its events in order, then its end**, and nothing but its end
once it was closed. -/
theorem answers_eq : ∀ (calls : List StreamCall) (s : RecordStream),
    s.answers calls =
      told s.events (calls.takeWhile (· = .next)).length ++
        List.replicate (calls.count .next - (calls.takeWhile (· = .next)).length) (.ok none)
  | [], s => by simp [answers, told]
  | .next :: calls, s => by
    rw [answers, next_fst, answers_eq calls s.next.2, events_next,
      List.takeWhile_cons_of_pos (by rfl), List.length_cons, told_succ, List.count_cons_self,
      Nat.add_sub_add_right, List.cons_append]
  | .close :: calls, s => by
    rw [answers, answers_of_ended calls s.events_release,
      List.takeWhile_cons_of_neg (by decide), List.count_cons_of_ne (by decide)]
    simp [told]

/-! ### A stream behind filters -/

theorem events_filtered (s : RecordStream) (filters : List Filter) :
    (s.restrict filters).events = s.events.filter (reaches filters) := by
  unfold events restrict
  rw [List.filter_filter]
  refine List.filter_congr fun event _ => ?_
  cases event with
  | error e => rfl
  | ok r => simp [reaches, passes, List.all_append, Bool.and_comm]

/-- What later filters do to the first event that passes the earlier ones. -/
theorem pull_append (first later : List Filter) : ∀ pending : List Event,
    pull (first ++ later) pending =
      match pull first pending with
      | (.ok (some r), rest) =>
        if passes later r.bins then (.ok (some r), rest) else pull (first ++ later) rest
      | stopped => stopped
  | [] => rfl
  | .error e :: rest => rfl
  | .ok r :: rest => by
    have hboth : passes (first ++ later) r.bins = (passes first r.bins && passes later r.bins) :=
      List.all_append
    by_cases hfirst : passes first r.bins = true
    · simp [pull, hboth, hfirst]
    · simp only [pull, hboth, hfirst, Bool.false_and, if_false, Bool.false_eq_true]
      exact pull_append first later rest

/-- **Asking behind filters asks inside, and again while a record is refused.** -/
theorem next_restrict (s : RecordStream) (filters : List Filter) :
    (s.restrict filters).next =
      match s.next with
      | (.ok (some r), t) =>
        if passes filters r.bins then (.ok (some r), t.restrict filters)
        else (t.restrict filters).next
      | (stopped, t) => (stopped, t.restrict filters) := by
  simp only [next, restrict, pull_append s.filters filters s.pending]
  rcases pull s.filters s.pending with ⟨_ | _ | r, rest⟩
  · rfl
  · rfl
  · dsimp only
    split_ifs <;> rfl

end RecordStream

/-- Behind filters a reader asks the stream inside until it is at its end, fails
or delivers a record that passes: so often, with this answer, and then the stream
inside is this one. -/
inductive Asks (filters : List Filter) : RecordStream → ℕ → Told → RecordStream → Prop
  | ended {s t : RecordStream} (h : s.next = (.ok none, t)) : Asks filters s 1 (.ok none) t
  | failed {s t : RecordStream} {e : Error} (h : s.next = (.error e, t)) :
      Asks filters s 1 (.error e) t
  | delivered {s t : RecordStream} {r : Record} (h : s.next = (.ok (some r), t))
      (hpasses : passes filters r.bins = true) : Asks filters s 1 (.ok (some r)) t
  | refused {s t u : RecordStream} {r : Record} {n : ℕ} {answer : Told}
      (h : s.next = (.ok (some r), t)) (hrefused : passes filters r.bins = false)
      (hrest : Asks filters t n answer u) : Asks filters s (n + 1) answer u

namespace Asks

variable {filters : List Filter} {s t : RecordStream} {n : ℕ} {answer : Told}

/-- Every asking takes one event. -/
theorem events_eq (h : Asks filters s n answer t) : t.events = s.events.drop n := by
  induction h with
  | ended h | failed h | delivered h _ =>
    rw [List.drop_one, ← RecordStream.events_next, h]
  | refused h _ _ ih =>
    rw [ih, ← List.drop_tail, ← RecordStream.events_next, h]

/-- The answers of the stream inside make up the answer behind the filters. -/
theorem next_eq (h : Asks filters s n answer t) :
    (s.restrict filters).next = (answer, t.restrict filters) := by
  induction h with
  | ended h | failed h => rw [RecordStream.next_restrict, h]
  | delivered h hpasses => rw [RecordStream.next_restrict, h]; exact if_pos hpasses
  | refused h hrefused _ ih => rw [RecordStream.next_restrict, h]; simpa [hrefused] using ih

/-- **Every call comes to an end**, after at most one asking more than there are
events. -/
theorem exists_le (filters : List Filter) (events : List Event) :
    ∀ s : RecordStream, s.events = events →
      ∃ n answer t, Asks filters s n answer t ∧ n ≤ events.length + 1 := by
  induction events with
  | nil =>
    intro s hs
    rcases s.next_cases with ⟨-, t, ht, -⟩ | ⟨r, t, -, h⟩ | ⟨e, t, -, h⟩
    · exact ⟨1, _, t, .ended ht, le_refl 1⟩
    · rw [hs] at h; cases h
    · rw [hs] at h; cases h
  | cons event rest ih =>
    intro s hs
    rcases s.next_cases with ⟨h, -⟩ | ⟨r, t, ht, h⟩ | ⟨e, t, ht, -⟩
    · rw [hs] at h; cases h
    · cases hpasses : passes filters r.bins with
      | true => exact ⟨1, _, t, .delivered ht hpasses, Nat.le_add_left 1 _⟩
      | false =>
        have htail : t.events = rest := by
          rw [hs] at h
          exact (List.cons.inj h).2.symm
        obtain ⟨n, answer, u, hasks, hle⟩ := ih t htail
        exact ⟨n + 1, answer, u, .refused ht hpasses hasks, Nat.succ_le_succ hle⟩
    · exact ⟨1, _, t, .failed ht, Nat.le_add_left 1 _⟩

end Asks

/-- Filters stay before the stream inside, whose events are the last of those
that it had. -/
theorem StreamCall.after_restrict (k : StreamCall) (s : RecordStream) (filters : List Filter) :
    ∃ inner : RecordStream, k.after (s.restrict filters) = inner.restrict filters ∧
      inner.events <:+ s.events := by
  cases k with
  | next =>
    obtain ⟨n, answer, t, hasks, -⟩ := Asks.exists_le filters s.events s rfl
    refine ⟨t, ?_, hasks.events_eq ▸ List.drop_suffix n _⟩
    rw [StreamCall.after, hasks.next_eq]
  | close => exact ⟨s.release, rfl, List.nil_suffix⟩

theorem RecordStream.afterAll_restrict (filters : List Filter) :
    ∀ (calls : List StreamCall) (s : RecordStream),
      ∃ inner : RecordStream, (s.restrict filters).afterAll calls = inner.restrict filters ∧
        inner.events <:+ s.events
  | [], s => ⟨s, rfl, List.suffix_refl _⟩
  | k :: calls, s => by
    obtain ⟨t, ht, hsuffix⟩ := k.after_restrict s filters
    obtain ⟨inner, hinner, hrest⟩ := afterAll_restrict filters calls t
    refine ⟨inner, ?_, hrest.trans hsuffix⟩
    rw [← hinner, ← ht]
    rfl

/-- **A stream behind filters loses nothing to a failure**: until it is closed,
its reader is told the sequence of the stream inside with exactly the records
removed that some filter refuses, the failures in their places, and then its end
again and again; once it was closed, only its end. Every call asks the stream inside
finitely often, and takes one event each time. -/
theorem filtered_stream_loses_nothing (s : RecordStream) (filters : List Filter)
    (calls : List StreamCall) :
    let kept := s.events.filter (reaches filters)
    let asked := (calls.takeWhile (· = .next)).length
    (∀ n, s.answers (List.replicate n .next) = told s.events n) ∧
    (s.restrict filters).answers calls =
      told kept asked ++ List.replicate (calls.count .next - asked) (.ok none) ∧
    ∃ inner n answer t, (s.restrict filters).afterAll calls = inner.restrict filters ∧
      inner.events <:+ s.events ∧ Asks filters inner n answer t ∧
      n ≤ inner.events.length + 1 ∧ t.events = inner.events.drop n ∧
      (inner.restrict filters).next = (answer, t.restrict filters) := by
  intro kept asked
  refine ⟨fun n => ?_, ?_, ?_⟩
  · have hall : (List.replicate n StreamCall.next).takeWhile (· = .next) =
        List.replicate n .next := by simp
    rw [RecordStream.answers_eq, hall, List.length_replicate, List.count_replicate_self,
      Nat.sub_self, List.replicate_zero, List.append_nil]
  · rw [RecordStream.answers_eq, RecordStream.events_filtered]
  · obtain ⟨inner, hinner, hsuffix⟩ := RecordStream.afterAll_restrict filters calls s
    obtain ⟨n, answer, t, hasks, hle⟩ := Asks.exists_le filters inner.events inner rfl
    exact ⟨inner, n, answer, t, hinner, hsuffix, hasks, hle, hasks.events_eq, hasks.next_eq⟩

end KeyedRows
