/-
# Clients of a store in memory

A client whose store is in memory and that no fault waits for is answered by
every call (`Client.Serves.call_eq`), with what the store holds
(`MemoryStore.answer`), and only a write changes that store
(`MemoryStore.after`). The client serves the store that comes out of the call
(`Client.Serves.served`), so a sequence of calls is followed on the store alone.

Key definitions: `Client.Serves`, `MemoryStore.answer`, `Client.served`.
-/
import KeyedRows.Proofs.Store.Memory
import KeyedRows.Store.Client

namespace KeyedRows
namespace MemoryStore

/-- The records of a set that satisfy the filter of a query. -/
def matching (m : MemoryStore) (q : IndexQuery) : List Record :=
  match q.filter with
  | some f => (m.recordsOf q.home).filter fun r => f.accepts r.bins
  | none => m.recordsOf q.home

/-- What a store in memory answers to a call. -/
def answer (m : MemoryStore) : (k : Call) → k.Result
  | .get key => m.find? key
  | .getBatch keys => keys.map m.find?
  | .put _ _ => ()
  | .scan home => m.recordsOf home
  | .query q => m.matching q
  | .queryAggregate q a => a.apply ((m.matching q).map (·.bins))
  | .anyRecord home => (m.recordsOf home).head?

/-- The store in memory after a call. -/
def after (m : MemoryStore) : Call → MemoryStore
  | .put key bins => m.put key bins
  | _ => m

theorem store_answer (m : MemoryStore) (k : Call) :
    (Store.memory m).answer k = .ok (m.answer k) := by
  have hload : ∀ home filter, (Store.memory m).load home filter = .ok (m.matching ⟨home, filter⟩) := by
    rintro home (_ | f)
    · simp [Store.load, matching]
    · rfl
  cases k <;> simp only [Store.answer, Store.recordsOf, hload] <;> rfl

theorem store_after (m : MemoryStore) (k : Call) :
    (Store.memory m).after k = .memory (m.after k) := by
  cases k <;> rfl

end MemoryStore

namespace Client

/-- The client passes its calls to this store, and no fault waits for them. -/
structure Serves (c : Client) (m : MemoryStore) : Prop where
  store : c.store = .memory m
  faultless : c.faults = []

/-- The client after a call that the store answered. -/
def served (c : Client) (k : Call) : Client :=
  { c with store := c.store.after k }.record k true

variable {c : Client} {m : MemoryStore}

/-- **A store in memory answers every call.** -/
theorem Serves.call_eq (h : c.Serves m) (k : Call) :
    call k c = .ok (m.answer k) (c.served k) := by
  obtain ⟨store, faults, log, closed⟩ := c
  obtain ⟨hs, hf⟩ := h
  simp only at hs hf
  subst hs hf
  simp only [call, strike, MemoryStore.store_answer]
  rfl

theorem Serves.get_eq (h : c.Serves m) (k : Key) :
    get k c = .ok (m.find? k) (c.served (.get k)) := h.call_eq (.get k)

theorem Serves.scan_eq (h : c.Serves m) (home : SetAddress) :
    scan home c = .ok (deliver (m.recordsOf home)) (c.served (.scan home)) := by
  simp only [scan, Functor.map, EStateM.map, h.call_eq]
  rfl

theorem Serves.query_eq (h : c.Serves m) (q : IndexQuery) :
    query q c = .ok (deliver (m.matching q)) (c.served (.query q)) := by
  simp only [query, Functor.map, EStateM.map, h.call_eq]
  rfl

theorem Serves.queryAggregate_eq (h : c.Serves m) (q : IndexQuery) (a : Aggregation) :
    queryAggregate q a c = .ok (deliver (a.apply ((m.matching q).map (·.bins))))
      (c.served (.queryAggregate q a)) := by
  simp only [queryAggregate, Functor.map, EStateM.map, h.call_eq]
  rfl

theorem Serves.served (h : c.Serves m) (k : Call) : (c.served k).Serves (m.after k) where
  store := by
    change c.store.after k = _
    rw [h.store, MemoryStore.store_after]
  faultless := h.faultless

/-! ### Clients whose calls succeed -/

/-- The call only reads. -/
def Reading : Call → Prop
  | .put _ _ => False
  | _ => True

/-- No fault waits for the client's calls, and its store has an answer to each. -/
structure Obliging (c : Client) : Prop where
  faultless : c.faults = []
  answers : ∀ k, ∃ r, c.store.answer k = .ok r

theorem Obliging.call_eq (h : c.Obliging) (k : Call) : ∃ r, call k c = .ok r (c.served k) := by
  obtain ⟨r, hr⟩ := h.answers k
  refine ⟨r, ?_⟩
  simp only [call, h.faultless, strike, hr, served]

/-- Reading leaves the client as obliging as it was. -/
theorem Obliging.served (h : c.Obliging) {k : Call} (hk : Reading k) : (c.served k).Obliging where
  faultless := h.faultless
  answers := by
    have hstore : (c.served k).store = c.store := by cases k <;> first | rfl | exact hk.elim
    rw [hstore]
    exact h.answers

theorem Obliging.closing (h : c.Obliging) (s : RecordStream) : (c.noteClosing s).Obliging := by
  unfold noteClosing
  split_ifs
  · exact ⟨h.faultless, h.answers⟩
  · exact h

end Client
end KeyedRows
