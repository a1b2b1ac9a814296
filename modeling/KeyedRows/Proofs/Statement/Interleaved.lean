/-
# Inserts at the same time

Two inserts share a client and take turns at its store, one call a turn. What an
insert still comes to is its outlook: the result that it is heading for, and the
rows that it will have written on the way. The outlook depends on the store only
under the keys of its own rows (`outlook_congr`), so the writes of an insert with
other keys do not change it, and a step of its own takes the first row off it
(`step_outlook`). Left alone an insert comes to its outlook, since a step leaves
what its run gives as it is (`run_outlook`). And every turn keeps where the two are
heading (`Heading.turn`), each as if it were alone, so in the end the store holds
the rows of both, in whatever order they were written (`putAll_comm`).

Key definitions: `Insertion.outlook`, `Turn`, `Race`, `Race.Heading`.
Key theorem: **`disjoint_inserts_as_alone`**.
-/
import KeyedRows.Proofs.Cursor.Calls
import KeyedRows.Proofs.Statement.Insert

namespace KeyedRows

/-! ### Rows under different keys -/

/-- The rows of the one list and of the other have no key in common. -/
def KeysApart (ws vs : List RowWrite) : Prop := ∀ w ∈ ws, ∀ v ∈ vs, w.key ≠ v.key

theorem KeysApart.symm {ws vs : List RowWrite} (h : KeysApart ws vs) : KeysApart vs ws :=
  fun v hv w hw he => h w hw v hv he.symm

theorem KeysApart.mono {ws ws' vs vs' : List RowWrite} (h : KeysApart ws vs) (hw : ws' ⊆ ws)
    (hv : vs' ⊆ vs) : KeysApart ws' vs' :=
  fun w hmem v hmem' => h w (hw hmem) v (hv hmem')

namespace MemoryStore

/-- Stores in which every key is found alike are one. -/
theorem eq_of_find? {m m' : MemoryStore} (h : ∀ key, m.find? key = m'.find? key) : m = m' := by
  cases m
  cases m'
  exact congrArg MemoryStore.mk (OrderedMap.ext_find? h)

theorem put_comm {j k : Key} (h : j ≠ k) (m : MemoryStore) (bins bins' : Bins) :
    (m.put j bins).put k bins' = (m.put k bins').put j bins := by
  apply eq_of_find?
  intro key
  simp only [find?_put, h.symm, h, if_false]
  by_cases hj : key = j
  · have hk : key ≠ k := hj ▸ h
    simp only [hj, hj ▸ hk, if_true, if_false]
  · simp only [hj, if_false]

theorem putAll_append (m : MemoryStore) (ws vs : List RowWrite) :
    m.putAll (ws ++ vs) = (m.putAll ws).putAll vs := by
  simp only [putAll, List.foldl_append]

theorem putAll_put {key : Key} (bins : Bins) : ∀ (ws : List RowWrite) (m : MemoryStore),
    (∀ w ∈ ws, w.key ≠ key) → (m.put key bins).putAll ws = (m.putAll ws).put key bins
  | [], _, _ => rfl
  | w :: ws, m, h => by
    have hw := h w List.mem_cons_self
    have hws : ∀ v ∈ ws, v.key ≠ key := fun v hv => h v (List.mem_cons_of_mem _ hv)
    calc (m.put key bins).putAll (w :: ws)
        = ((m.put key bins).put w.key w.bins).putAll ws := rfl
      _ = ((m.put w.key w.bins).put key bins).putAll ws := by rw [put_comm hw.symm]
      _ = ((m.put w.key w.bins).putAll ws).put key bins := putAll_put bins ws _ hws

/-- **Rows under different keys are written in either order.** -/
theorem putAll_comm {vs : List RowWrite} : ∀ {ws : List RowWrite} (m : MemoryStore),
    KeysApart ws vs → (m.putAll ws).putAll vs = (m.putAll vs).putAll ws
  | [], _, _ => rfl
  | w :: ws, m, h => by
    have hw : ∀ v ∈ vs, v.key ≠ w.key := fun v hv => (h w List.mem_cons_self v hv).symm
    have hws : KeysApart ws vs := h.mono (List.subset_cons_self w ws) (List.Subset.refl vs)
    calc ((m.put w.key w.bins).putAll ws).putAll vs
        = ((m.put w.key w.bins).putAll vs).putAll ws := putAll_comm _ hws
      _ = ((m.putAll vs).put w.key w.bins).putAll ws := by rw [putAll_put w.bins vs m hw]

/-- Rows leave what is found under other keys. -/
theorem find?_putAll_of_apart {ws vs : List RowWrite} (h : KeysApart ws vs) (m : MemoryStore) :
    ∀ v ∈ vs, (m.putAll ws).find? v.key = m.find? v.key := by
  intro v hv
  apply find?_putAll_of_notMem
  intro hmem
  obtain ⟨w, hw, he⟩ := List.mem_map.mp hmem
  exact h w hw v hv he

end MemoryStore

/-! ### What an insert comes to -/

namespace Insertion

/-- The rows that an insert may still write. -/
def rows : Insertion → List RowWrite
  | .checking ws => ws
  | .writing _ ws => ws
  | .ended _ => []

/-- The result that an insert comes to if it is left alone with a store, and the
rows that it writes until then. -/
def outlook : Insertion → MemoryStore → Except Error ℕ × List RowWrite
  | .checking ws, m =>
    match checkFound ws ((ws.map (·.key)).map m.find?) with
    | .ok _ => (.ok ws.length, ws)
    | .error e => (.error e, [])
  | .writing written ws, _ => (.ok (written + ws.length), ws)
  | .ended result, _ => (result, [])

theorem outlook_rows (a : Insertion) (m : MemoryStore) : (a.outlook m).2 ⊆ a.rows := by
  cases a with
  | checking ws =>
    simp only [outlook]
    cases checkFound ws ((ws.map (·.key)).map m.find?) with
    | ok u => exact List.Subset.refl ws
    | error e => exact List.nil_subset ws
  | writing written ws => exact List.Subset.refl ws
  | ended result => exact List.nil_subset []

/-- **An insert looks only at the keys of its rows.** -/
theorem outlook_congr {a : Insertion} {m m' : MemoryStore}
    (h : ∀ w ∈ a.rows, m.find? w.key = m'.find? w.key) : a.outlook m = a.outlook m' := by
  cases a with
  | checking ws =>
    have hfound : (ws.map (·.key)).map m.find? = (ws.map (·.key)).map m'.find? := by
      rw [List.map_map, List.map_map]
      exact List.map_congr_left h
    simp only [outlook, hfound]
  | writing written ws => rfl
  | ended result => rfl

/-- **A step takes rows off the outlook and writes them.** -/
theorem step_outlook {c : Client} {m : MemoryStore} (hc : c.Serves m) (a : Insertion) :
    ∃ ws rest, (a.outlook m).2 = ws ++ rest ∧ (a.step c).2.Serves (m.putAll ws) ∧
      (a.step c).1.outlook (m.putAll ws) = ((a.outlook m).1, rest) ∧
      (a.step c).1.rows ⊆ a.rows := by
  cases a with
  | checking ws =>
    have hget : Client.getBatch (ws.map (·.key)) c =
        .ok ((ws.map (·.key)).map m.find?) (c.served (.getBatch (ws.map (·.key)))) :=
      hc.call_eq (.getBatch (ws.map RowWrite.key))
    have hserved := hc.served (.getBatch (ws.map (·.key)))
    simp only [step, hget, afterCheck, outlook]
    cases checkFound ws ((ws.map (·.key)).map m.find?) with
    | ok u =>
      refine ⟨[], ws, rfl, hserved, ?_, List.Subset.refl ws⟩
      show ((.ok (0 + ws.length), ws) : Except Error ℕ × List RowWrite) = (.ok ws.length, ws)
      rw [Nat.zero_add]
    | error e => exact ⟨[], [], rfl, hserved, rfl, List.nil_subset ws⟩
  | writing written ws =>
    cases ws with
    | nil => exact ⟨[], [], rfl, hc, rfl, List.nil_subset []⟩
    | cons w ws =>
      have hput : Client.put w.key w.bins c = .ok () (c.served (.put w.key w.bins)) :=
        hc.call_eq (.put w.key w.bins)
      simp only [step, hput]
      refine ⟨[w], ws, rfl, hc.served (.put w.key w.bins), ?_, List.subset_cons_self w ws⟩
      simp only [outlook, List.length_cons]
      congr 2
      omega
  | ended result => exact ⟨[], [], rfl, hc, rfl, List.nil_subset []⟩

/-- What is left of an insert in steps: one for each call, and one to report. -/
def steps : Insertion → ℕ
  | .checking ws => ws.length + 2
  | .writing _ ws => ws.length + 1
  | .ended _ => 0

theorem steps_step (a : Insertion) (c : Client) : (a.step c).1.steps ≤ a.steps - 1 := by
  cases a with
  | checking ws =>
    simp only [step]
    cases Client.getBatch (ws.map (·.key)) c with
    | error e d => simp [steps]
    | ok found d =>
      simp only [afterCheck]
      cases checkFound ws found <;> simp [steps]
  | writing written ws =>
    cases ws with
    | nil => simp [step, steps]
    | cons w ws =>
      simp only [step]
      cases Client.put w.key w.bins c <;> simp [steps]
  | ended result => simp [step, steps]

theorem eq_ended_of_steps {a : Insertion} (h : a.steps ≤ 0) : ∃ result, a = .ended result := by
  cases a with
  | checking ws => simp [steps] at h
  | writing written ws => simp [steps] at h
  | ended result => exact ⟨result, rfl⟩

end Insertion

/-- An insert with at most so many steps left comes to its outlook: a step leaves
its outcome as it is, and takes the rows that it writes off the outlook. -/
theorem Insertion.run_outlook_of_steps : ∀ (n : ℕ) {a : Insertion} {c : Client} {m : MemoryStore},
    a.steps ≤ n → c.Serves m →
      outcome a.run c = (a.outlook m).1 ∧ (leaves a.run c).Serves (m.putAll (a.outlook m).2)
  | 0, a, c, m, hn, hc => by
    obtain ⟨result, rfl⟩ := eq_ended_of_steps hn
    cases result <;> exact ⟨rfl, hc⟩
  | n + 1, a, c, m, hn, hc => by
    obtain ⟨ws, rest, hrows, hserves, hnext, -⟩ := step_outlook hc a
    have hfewer : (a.step c).1.steps ≤ n := (steps_step a c).trans (Nat.sub_le_of_le_add hn)
    obtain ⟨hresult, hleaves⟩ := run_outlook_of_steps n hfewer hserves
    have houtcome : outcome (a.step c).1.run (a.step c).2 = outcome a.run c := by
      simp only [outcome, run_step]
    have hstate : leaves (a.step c).1.run (a.step c).2 = leaves a.run c := by
      simp only [leaves, run_step]
    rw [hnext] at hresult hleaves
    rw [houtcome] at hresult
    rw [hstate, ← MemoryStore.putAll_append, ← hrows] at hleaves
    exact ⟨hresult, hleaves⟩

/-- **Left alone, an insert comes to its outlook.** -/
theorem Insertion.run_outlook {c : Client} {m : MemoryStore} (hc : c.Serves m) (a : Insertion) :
    outcome a.run c = (a.outlook m).1 ∧ (leaves a.run c).Serves (m.putAll (a.outlook m).2) :=
  run_outlook_of_steps a.steps le_rfl hc

/-! ### Taking turns -/

/-- Which of two inserts makes the next call. -/
inductive Turn where
  | first
  | second
deriving DecidableEq

/-- Two inserts under way, and the client that both of them call. -/
structure Race where
  first : Insertion
  second : Insertion
  client : Client

namespace Race

/-- One of the inserts makes a step. -/
def turn (r : Race) : Turn → Race
  | .first => { r with first := (r.first.step r.client).1, client := (r.first.step r.client).2 }
  | .second => { r with second := (r.second.step r.client).1, client := (r.second.step r.client).2 }

/-- The inserts make steps in these turns. -/
def run (r : Race) (turns : List Turn) : Race := turns.foldl turn r

/-- With the store as it is, the inserts are heading for these results and for this
store. -/
structure Heading (r : Race) (m : MemoryStore) (x y : Except Error ℕ) (final : MemoryStore) :
    Prop where
  serves : r.client.Serves m
  apart : KeysApart r.first.rows r.second.rows
  first : (r.first.outlook m).1 = x
  second : (r.second.outlook m).1 = y
  store : (m.putAll (r.first.outlook m).2).putAll (r.second.outlook m).2 = final

variable {r : Race} {m : MemoryStore} {x y : Except Error ℕ} {final : MemoryStore}

/-- The same inserts, with their places changed. -/
def swap (r : Race) : Race := ⟨r.second, r.first, r.client⟩

theorem Heading.swap (h : r.Heading m x y final) : r.swap.Heading m y x final where
  serves := h.serves
  apart := h.apart.symm
  first := h.second
  second := h.first
  store := by
    have hrows : KeysApart (r.second.outlook m).2 (r.first.outlook m).2 :=
      h.apart.symm.mono (r.second.outlook_rows m) (r.first.outlook_rows m)
    exact (MemoryStore.putAll_comm m hrows).trans h.store

theorem Heading.turn_first (h : r.Heading m x y final) :
    ∃ m', (r.turn .first).Heading m' x y final := by
  obtain ⟨ws, rest, hrows, hserves, hnext, hsub⟩ := Insertion.step_outlook h.serves r.first
  have hws : ws ⊆ r.first.rows := fun w hw =>
    r.first.outlook_rows m (hrows ▸ List.mem_append_left rest hw)
  have hother : r.second.outlook (m.putAll ws) = r.second.outlook m :=
    Insertion.outlook_congr (MemoryStore.find?_putAll_of_apart
      (h.apart.mono hws (List.Subset.refl _)) m)
  refine ⟨m.putAll ws, hserves, h.apart.mono hsub (List.Subset.refl _), ?_, ?_, ?_⟩
  · exact (congrArg Prod.fst hnext).trans h.first
  · exact (congrArg Prod.fst hother).trans h.second
  · calc ((m.putAll ws).putAll ((r.first.step r.client).1.outlook (m.putAll ws)).2).putAll
          (r.second.outlook (m.putAll ws)).2
        = ((m.putAll ws).putAll rest).putAll (r.second.outlook m).2 := by rw [hnext, hother]
      _ = (m.putAll (r.first.outlook m).2).putAll (r.second.outlook m).2 := by
          rw [hrows, MemoryStore.putAll_append]
      _ = final := h.store

/-- **A turn keeps where both are heading.** -/
theorem Heading.turn (h : r.Heading m x y final) (t : Turn) :
    ∃ m', (r.turn t).Heading m' x y final := by
  cases t with
  | first => exact h.turn_first
  | second =>
    obtain ⟨m', hm'⟩ := h.swap.turn_first
    exact ⟨m', hm'.swap⟩

/-- Turns keep where both are heading. -/
theorem Heading.run (h : r.Heading m x y final) (turns : List Turn) :
    ∃ m', (r.run turns).Heading m' x y final := by
  induction turns generalizing r m with
  | nil => exact ⟨m, h⟩
  | cons t turns ih =>
    obtain ⟨m', hm'⟩ := h.turn t
    exact ih hm'

/-- The first insert ends with the result that it is heading for. -/
theorem Heading.first_ended (h : r.Heading m x y final) {result : Except Error ℕ}
    (hended : r.first = .ended result) : result = x := by
  have hfirst := h.first
  rwa [hended] at hfirst

/-- Once both have ended, the store is the one that they were heading for. -/
theorem Heading.serves_final (h : r.Heading m x y final) {result result' : Except Error ℕ}
    (hfirst : r.first = .ended result) (hsecond : r.second = .ended result') :
    r.client.Serves final := by
  have hstore := h.store
  rw [hfirst, hsecond] at hstore
  have hm : m = final := hstore
  exact hm ▸ h.serves

/-- Each turn of an insert takes a step off it. -/
theorem steps_run (turns : List Turn) (r : Race) :
    (r.run turns).first.steps ≤ r.first.steps - turns.count .first ∧
      (r.run turns).second.steps ≤ r.second.steps - turns.count .second := by
  induction turns generalizing r with
  | nil => exact ⟨le_refl _, le_refl _⟩
  | cons t turns ih =>
    obtain ⟨hfirst, hsecond⟩ := ih (r.turn t)
    cases t with
    | first =>
      have hstep := Insertion.steps_step r.first r.client
      simp only [Race.turn] at hfirst hsecond
      rw [List.count_cons_self, List.count_cons_of_ne (by decide)]
      exact ⟨le_trans hfirst (by omega), hsecond⟩
    | second =>
      have hstep := Insertion.steps_step r.second r.client
      simp only [Race.turn] at hfirst hsecond
      rw [List.count_cons_self, List.count_cons_of_ne (by decide)]
      exact ⟨hfirst, le_trans hsecond (by omega)⟩

end Race

/-! ### Inserts -/

namespace Insert

/-- The insert before its first call; without a key for every row it has ended. -/
def opening (i : Insert) : Insertion :=
  match i.start with
  | .ok insertion => insertion
  | .error e => .ended (.error e)

theorem run_opening (i : Insert) : i.opening.run = i.run := by
  funext c
  unfold opening run
  cases i.start <;> rfl

/-- The rows of an insert are under the keys of its rows of values. -/
theorem rows_opening {i : Insert} : ∀ w ∈ i.opening.rows, w.key ∈ keysAt i.home i.keyIndex i.rows := by
  intro w hw
  rcases i.writes_cases with ⟨ws, hws, hall⟩ | ⟨e, he, -⟩
  · have hrows : i.opening.rows = ws := by
      unfold opening start
      rw [hws]
      cases i.mode <;> rfl
    rw [← keys_of_writes hall]
    exact List.mem_map.mpr ⟨w, hrows ▸ hw, rfl⟩
  · have hrows : i.opening.rows = [] := by
      unfold opening start
      rw [he]
      rfl
    rw [hrows] at hw
    cases hw

end Insert

variable {i j : Insert} {c : Client} {m : MemoryStore}

/-- Inserts of different keys that run one after the other. -/
theorem Insert.leaves_in_turn (hm : c.Serves m)
    (hapart : KeysApart i.opening.rows j.opening.rows) :
    (leaves j.run (leaves i.run c)).Serves
      ((m.putAll (i.opening.outlook m).2).putAll (j.opening.outlook m).2) := by
  obtain ⟨-, hfirst⟩ := i.opening.run_outlook hm
  obtain ⟨-, hsecond⟩ := j.opening.run_outlook hfirst
  have hsame : j.opening.outlook (m.putAll (i.opening.outlook m).2) = j.opening.outlook m :=
    Insertion.outlook_congr (MemoryStore.find?_putAll_of_apart
      (hapart.mono (i.opening.outlook_rows m) (List.Subset.refl _)) m)
  rwa [hsame, i.run_opening, j.run_opening] at hsecond

/-- **Inserts of different keys do not disturb each other.** In whatever order two
inserts make their calls on a store in memory, each of them ends, at the latest
with the last of its steps, with the outcome that it has alone. Once both have, the
store is the one that they leave if they run one after the other, whichever of them
goes first. -/
theorem disjoint_inserts_as_alone (i j : Insert) (c : Client) (m : MemoryStore) (hm : c.Serves m)
    (hapart : ∀ key ∈ keysAt i.home i.keyIndex i.rows, key ∉ keysAt j.home j.keyIndex j.rows)
    (turns : List Turn) :
    let raced := (Race.mk i.opening j.opening c).run turns
    (i.opening.steps ≤ turns.count .first → ∃ result, raced.first = .ended result) ∧
      (j.opening.steps ≤ turns.count .second → ∃ result, raced.second = .ended result) ∧
      (∀ result, raced.first = .ended result → result = outcome i.run c) ∧
      (∀ result, raced.second = .ended result → result = outcome j.run c) ∧
      ∀ result result', raced.first = .ended result → raced.second = .ended result' →
        raced.client.store = (leaves j.run (leaves i.run c)).store ∧
          raced.client.store = (leaves i.run (leaves j.run c)).store := by
  intro raced
  have hrows : KeysApart i.opening.rows j.opening.rows := by
    intro w hw v hv he
    exact hapart w.key (Insert.rows_opening w hw) (he ▸ Insert.rows_opening v hv)
  obtain ⟨hx, -⟩ := i.opening.run_outlook hm
  obtain ⟨hy, -⟩ := j.opening.run_outlook hm
  rw [i.run_opening] at hx
  rw [j.run_opening] at hy
  have hstart : (Race.mk i.opening j.opening c).Heading m (outcome i.run c) (outcome j.run c)
      ((m.putAll (i.opening.outlook m).2).putAll (j.opening.outlook m).2) :=
    ⟨hm, hrows, hx.symm, hy.symm, rfl⟩
  obtain ⟨m', hheading⟩ := hstart.run turns
  obtain ⟨hfirst, hsecond⟩ := Race.steps_run turns (Race.mk i.opening j.opening c)
  refine ⟨fun hi => ?_, fun hj => ?_, fun _ => hheading.first_ended,
    fun _ => hheading.swap.first_ended, fun _ _ ha hb => ?_⟩
  · exact Insertion.eq_ended_of_steps (hfirst.trans (Nat.sub_eq_zero_of_le hi).le)
  · exact Insertion.eq_ended_of_steps (hsecond.trans (Nat.sub_eq_zero_of_le hj).le)
  · have hserves := hheading.serves_final ha hb
    have hforth := Insert.leaves_in_turn hm hrows
    have hback := Insert.leaves_in_turn hm hrows.symm
    have hwritten : KeysApart (j.opening.outlook m).2 (i.opening.outlook m).2 :=
      hrows.symm.mono (j.opening.outlook_rows m) (i.opening.outlook_rows m)
    rw [MemoryStore.putAll_comm m hwritten] at hback
    exact ⟨hserves.store.trans hforth.store.symm, hserves.store.trans hback.store.symm⟩

/-- A strict insert and one that merges, into one set and with their calls mixed: the
second writes its first row before the first has asked for its keys. -/
theorem strict_beside_merging_insert :
    let i : Insert :=
      { home := ⟨"test", "t"⟩, columns := ["PK", "n"], keyIndex := 0, keyColumn := "PK",
        rows := [[.int32 1, .int8 1], [.text "a", .int8 2]] }
    let j : Insert :=
      { home := ⟨"test", "t"⟩, columns := ["n", "PK"], keyIndex := 1, keyColumn := "PK",
        rows := [[.int8 3, .int64 2], [.null, .int64 2]], mode := .ignore }
    let m := MemoryStore.put {} ⟨i.home, .int 2⟩ (.ofList [("city", .text "rome")])
    let c : Client := { store := .memory m }
    let turns : List Turn := [.second, .first, .first, .second, .first, .second, .first]
    let raced := (Race.mk i.opening j.opening c).run turns
    c.Serves m ∧
      (∀ key ∈ keysAt i.home i.keyIndex i.rows, key ∉ keysAt j.home j.keyIndex j.rows) ∧
      raced.client.store = .memory (((m.put ⟨i.home, .int 1⟩ (.ofList [("n", .int64 1)])).put
        ⟨i.home, .text "a"⟩ (.ofList [("n", .int64 2)])).put ⟨i.home, .int 2⟩ {}) ∧
      raced.first = .ended (outcome i.run c) ∧ raced.second = .ended (outcome j.run c) ∧
        raced.client.store = (leaves j.run (leaves i.run c)).store ∧
        raced.client.store = (leaves i.run (leaves j.run c)).store := by
  intro i j m c turns raced
  have hm : c.Serves m := ⟨rfl, rfl⟩
  have hapart : ∀ key ∈ keysAt i.home i.keyIndex i.rows,
      key ∉ keysAt j.home j.keyIndex j.rows := by decide +kernel
  have hi : i.opening.steps ≤ turns.count .first := by decide +kernel
  have hj : j.opening.steps ≤ turns.count .second := by decide +kernel
  have hstore : raced.client.store =
      .memory (((m.put ⟨i.home, .int 1⟩ (.ofList [("n", .int64 1)])).put
        ⟨i.home, .text "a"⟩ (.ofList [("n", .int64 2)])).put ⟨i.home, .int 2⟩ {}) := by
    decide +kernel
  obtain ⟨hfirst, hsecond, halone, halone', hstores⟩ :=
    disjoint_inserts_as_alone i j c m hm hapart turns
  obtain ⟨result, hresult⟩ := hfirst hi
  obtain ⟨result', hresult'⟩ := hsecond hj
  exact ⟨hm, hapart, hstore, halone result hresult ▸ hresult, halone' result' hresult' ▸ hresult',
    hstores result result' hresult hresult'⟩

end KeyedRows
