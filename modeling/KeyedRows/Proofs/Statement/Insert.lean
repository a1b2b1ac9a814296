/-
# What an insert leaves in the store

In strict mode the rows of an insert are written together or not at all. What
decides is said of the rows and the store alone: all rows have a value for
every column, the values in the key column are keys, no key stands twice and
none exists (`Insertable`). Then every key holds the values of its row, and
every other record is what it was (`Inserted`).

Two keys with one digest would pass for one key, so the keys of the rows are
taken to have digests of their own (`DigestsDiffer`).

Key definitions: `keyAt`, `Insertable`, `Holds`, `Inserted`.
Key theorem: **`strict_insert_all_or_nothing`**.
-/
import KeyedRows.Proofs.Store.Client
import KeyedRows.Statement.Insert

namespace KeyedRows

/-- What stands in one of two lists that correspond has its counterpart in the
other. -/
theorem exists_of_forall₂ {α β : Type} {R : α → β → Prop} {as : List α} {bs : List β}
    (h : List.Forall₂ R as bs) {a : α} (ha : a ∈ as) : ∃ b ∈ bs, R a b := by
  induction h with
  | nil => cases ha
  | cons hab _ ih =>
    rcases List.mem_cons.mp ha with rfl | ha
    · exact ⟨_, List.mem_cons_self, hab⟩
    · obtain ⟨b, hb, hab⟩ := ih ha
      exact ⟨b, List.mem_cons_of_mem _ hb, hab⟩

/-- The user key of a row, whose place is given. -/
def keyAt (place : Nat) (row : List Value) : Option UserKey := row[place]? >>= Value.key?

/-- The keys of rows in a set. -/
def keysAt (home : SetAddress) (place : Nat) (rows : List (List Value)) : List Key :=
  (rows.filterMap (keyAt place)).map (Key.mk home)

/-- Different keys have different digests. -/
def DigestsDiffer (keys : List Key) : Prop :=
  ∀ a ∈ keys, ∀ b ∈ keys, a.digest = b.digest → a = b

instance (keys : List Key) : Decidable (DigestsDiffer keys) :=
  inferInstanceAs (Decidable (∀ a ∈ keys, ∀ b ∈ keys, a.digest = b.digest → a = b))

/-- The rows can be inserted into a set, the user key standing at this place. -/
structure Insertable (home : SetAddress) (columns : List String) (place : Nat)
    (rows : List (List Value)) (m : MemoryStore) : Prop where
  lengths : ∀ row ∈ rows, row.length = columns.length
  literals : ∀ row ∈ rows, (keyAt place row).isSome
  distinct : (keysAt home place rows).Nodup
  absent : ∀ key ∈ keysAt home place rows, m.find? key = none

/-- The value of a row in the last column of a name, the place of the key left
out. -/
def IsValue (columns : List String) (place : Nat) (row : List Value) (name : String)
    (v : Value) : Prop :=
  ∃ j, j ≠ place ∧ columns[j]? = some name ∧ row[j]? = some v ∧
    ∀ j' > j, j' ≠ place → columns[j']? ≠ some name

/-- What is kept of a row under a name: the normal form of its value, if that
is not null. -/
def Holds (columns : List String) (place : Nat) (row : List Value) (name : String) (v : Value) :
    Prop :=
  ∃ w, IsValue columns place row name w ∧ w.isNull = false ∧ v = w.normalized

/-- The second store is the first with these rows in the set. -/
structure Inserted (home : SetAddress) (columns : List String) (place : Nat)
    (rows : List (List Value)) (m m' : MemoryStore) : Prop where
  written : ∀ row ∈ rows, ∀ user, keyAt place row = some user → ∃ bins,
    m'.find? ⟨home, user⟩ = some bins ∧ ∀ name v, bins.find? name = some v ↔
      Holds columns place row name v
  others : ∀ key ∉ keysAt home place rows, m'.find? key = m.find? key

theorem mem_keysAt {home : SetAddress} {place : Nat} {rows : List (List Value)} {key : Key} :
    key ∈ keysAt home place rows ↔
      key.home = home ∧ ∃ row ∈ rows, keyAt place row = some key.user := by
  obtain ⟨home', user⟩ := key
  simp only [keysAt, List.mem_map, List.mem_filterMap, Key.mk.injEq]
  constructor
  · rintro ⟨u, ⟨row, hrow, hu⟩, rfl, rfl⟩
    exact ⟨rfl, row, hrow, hu⟩
  · rintro ⟨rfl, row, hrow, hu⟩
    exact ⟨user, ⟨row, hrow, hu⟩, rfl, rfl⟩

/-! ### The rows and their keys -/

namespace Insert

variable {i : Insert}

/-- A row has a key exactly if it has a value for every column and that of the
key column is a key. -/
theorem keyOf_eq_ok (row : List Value) (key : Key) :
    i.keyOf row = .ok key ↔ row.length = i.columns.length ∧ key.home = i.home ∧
      keyAt i.keyIndex row = some key.user := by
  obtain ⟨home, user⟩ := key
  have hnull : Value.key? .null = none := rfl
  have hget : keyAt i.keyIndex row = (row.getD i.keyIndex .null).key? := by
    unfold keyAt
    rw [List.getD_eq_getElem?_getD]
    cases row[i.keyIndex]? <;> rfl
  unfold keyOf
  split_ifs with hlen
  · rw [hget, ← UserKey.ofValue_eq_ok i.keyColumn]
    cases UserKey.ofValue i.keyColumn (row.getD i.keyIndex .null) with
    | error e => simp [bind, Except.bind]
    | ok u => simp [bind, Except.bind, pure, Except.pure, hlen, eq_comm]
  · simp [hlen]

/-- What is written for a row. -/
def WrittenFor (i : Insert) (row : List Value) (w : RowWrite) : Prop :=
  i.keyOf row = .ok w.key ∧ w.bins = i.binsOf row

theorem writes_cases (i : Insert) :
    (∃ ws, i.writes = .ok ws ∧ List.Forall₂ i.WrittenFor i.rows ws) ∨
      ∃ e, i.writes = .error e ∧ ∃ row ∈ i.rows, ∀ key, i.keyOf row ≠ .ok key := by
  unfold writes
  induction i.rows with
  | nil => exact .inl ⟨[], rfl, .nil⟩
  | cons row rows ih =>
    rw [List.mapM_cons]
    cases hk : i.keyOf row with
    | error e => exact .inr ⟨e, rfl, row, List.mem_cons_self, by simp [hk]⟩
    | ok key =>
      rcases ih with ⟨ws, hws, hall⟩ | ⟨e, he, row', hrow', hno⟩
      · rw [hws]
        exact .inl ⟨⟨key, i.binsOf row⟩ :: ws, rfl, .cons ⟨hk, rfl⟩ hall⟩
      · rw [he]
        exact .inr ⟨e, rfl, row', List.mem_cons_of_mem _ hrow', hno⟩

/-- The keys of what is written are the keys of the rows. -/
theorem keys_of_writes {rows : List (List Value)} {ws : List RowWrite}
    (h : List.Forall₂ i.WrittenFor rows ws) :
    ws.map (·.key) = keysAt i.home i.keyIndex rows := by
  induction h with
  | nil => rfl
  | cons hw _ ih =>
    obtain ⟨-, hhome, huser⟩ := (keyOf_eq_ok _ _).mp hw.1
    rw [List.map_cons, ih, keysAt, keysAt, List.filterMap_cons_some huser, List.map_cons, ← hhome]

end Insert

/-! ### The check -/

theorem repeatedKeys_eq_nil_iff : ∀ (keys : List Key) (seen : List (List UInt8)),
    repeatedKeys seen keys = [] ↔
      (keys.map Key.digest).Nodup ∧ ∀ key ∈ keys, key.digest ∉ seen
  | [], seen => by simp [repeatedKeys]
  | key :: keys, seen => by
    rw [repeatedKeys]
    by_cases h : key.digest ∈ seen
    · simp [h]
    · rw [if_neg (by simpa using h), repeatedKeys_eq_nil_iff keys, List.map_cons,
        List.nodup_cons, List.forall_mem_cons]
      simp only [List.mem_cons, not_or, List.mem_map]
      constructor
      · rintro ⟨hnodup, hout⟩
        refine ⟨⟨?_, hnodup⟩, h, fun k hk => (hout k hk).2⟩
        rintro ⟨k, hk, hd⟩
        exact (hout k hk).1 hd
      · rintro ⟨⟨hnot, hnodup⟩, -, hseen⟩
        exact ⟨hnodup, fun k hk => ⟨fun hd => hnot ⟨k, hk, hd⟩, hseen k hk⟩⟩

theorem existingKeys_eq_nil_iff (find : Key → Option Bins) (keys : List Key) :
    existingKeys keys (keys.map find) = [] ↔ ∀ key ∈ keys, find key = none := by
  rw [existingKeys, List.map_eq_nil_iff, List.filter_eq_nil_iff, ← List.map_prod_left_eq_zip]
  simp

/-- **The check passes exactly if no key exists and no two digests are the
same.** -/
theorem checkFound_eq_ok_iff (find : Key → Option Bins) (ws : List RowWrite) :
    checkFound ws ((ws.map (·.key)).map find) = .ok () ↔
      ((ws.map (·.key)).map Key.digest).Nodup ∧ ∀ key ∈ ws.map (·.key), find key = none := by
  have hnil := repeatedKeys_eq_nil_iff (ws.map (·.key)) []
  simp only [List.not_mem_nil, not_false_eq_true, implies_true, and_true] at hnil
  rw [← existingKeys_eq_nil_iff, ← hnil, ← List.append_eq_nil_iff, checkFound]
  cases repeatedKeys [] (ws.map (·.key)) ++
    existingKeys (ws.map (·.key)) ((ws.map (·.key)).map find) <;> simp

/-! ### The writes -/

/-- The store after rows are written into it. -/
def MemoryStore.putAll (m : MemoryStore) (ws : List RowWrite) : MemoryStore :=
  ws.foldl (fun m w => m.put w.key w.bins) m

theorem writeRows_served : ∀ (ws : List RowWrite) (written : ℕ) {c : Client} {m : MemoryStore},
    c.Serves m → ∃ after, writeRows written ws c = .ok (written + ws.length) after ∧
      after.Serves (m.putAll ws)
  | [], written, c, m, h => ⟨c, rfl, h⟩
  | w :: ws, written, c, m, h => by
    obtain ⟨after, hrun, hserves⟩ :=
      writeRows_served ws (written + 1) (h.served (.put w.key w.bins))
    refine ⟨after, ?_, hserves⟩
    rw [List.length_cons, ← Nat.add_assoc, Nat.add_right_comm, ← hrun]
    simp only [writeRows, Client.put, bind, EStateM.bind, h.call_eq]

theorem find?_putAll_of_notMem {key : Key} : ∀ {ws : List RowWrite} {m : MemoryStore},
    key ∉ ws.map (·.key) → (m.putAll ws).find? key = m.find? key
  | [], _, _ => rfl
  | w :: ws, m, h => by
    rw [List.map_cons, List.mem_cons, not_or] at h
    rw [MemoryStore.putAll, List.foldl_cons, ← MemoryStore.putAll,
      find?_putAll_of_notMem h.2, MemoryStore.find?_put, if_neg h.1]

/-- Of rows with different keys each is found as it was written. -/
theorem find?_putAll_of_mem {w : RowWrite} : ∀ {ws : List RowWrite} {m : MemoryStore},
    (ws.map (·.key)).Nodup → w ∈ ws →
      (m.putAll ws).find? w.key = some (((m.find? w.key).getD {}).merge w.bins)
  | v :: ws, m, hnodup, hw => by
    rw [List.map_cons, List.nodup_cons] at hnodup
    rw [MemoryStore.putAll, List.foldl_cons, ← MemoryStore.putAll]
    rcases List.mem_cons.mp hw with rfl | hw
    · rw [find?_putAll_of_notMem hnodup.1, MemoryStore.find?_put, if_pos rfl]
    · have hne : w.key ≠ v.key := fun he => hnodup.1 (he ▸ List.mem_map.mpr ⟨w, hw, rfl⟩)
      rw [find?_putAll_of_mem hnodup.2 hw, MemoryStore.find?_put, if_neg hne]

/-! ### The values of a row -/

theorem lastUnder_row {columns : List String} {row : List Value} (place : Nat)
    (hlen : row.length = columns.length) (name : String) (v : Value) :
    OrderedMap.lastUnder name ((columns.zip row).eraseIdx place) = some v ↔
      IsValue columns place row name v := by
  rw [OrderedMap.lastUnder_eraseIdx, IsValue]
  refine exists_congr fun j => and_congr_right fun _ => ?_
  rw [List.getElem?_zip_eq_some, and_assoc]
  refine and_congr_right fun _ => and_congr_right fun _ => ?_
  refine forall_congr' fun j' => forall_congr' fun _ => forall_congr' fun _ => ?_
  constructor
  · intro h hname
    have hlt : j' < row.length := hlen ▸ (List.getElem?_eq_some_iff.mp hname).1
    exact h (name, row[j']) (List.getElem?_zip_eq_some.mpr ⟨hname, List.getElem?_eq_getElem hlt⟩) rfl
  · rintro h ⟨name', v'⟩ he rfl
    exact h (List.getElem?_zip_eq_some.mp he).1

/-- A new record holds the values of its row. -/
theorem find?_merge_binsOf {i : Insert} {row : List Value}
    (hlen : row.length = i.columns.length) (name : String) (v : Value) :
    (Bins.merge {} (i.binsOf row)).find? name = some v ↔
      Holds i.columns i.keyIndex row name v := by
  have hvalue := lastUnder_row i.keyIndex hlen name
  rw [Bins.find?_merge, Insert.binsOf, OrderedMap.find?_ofList, Holds]
  cases hlast : OrderedMap.lastUnder name ((i.columns.zip row).eraseIdx i.keyIndex) with
  | none =>
    simp only [hlast, reduceCtorEq, false_iff] at hvalue
    simp [hvalue, OrderedMap.find?_empty, show ({} : Bins) = OrderedMap.empty from rfl]
  | some w =>
    simp only [hlast, Option.some.injEq] at hvalue
    simp only [← hvalue, Value.kept]
    cases hnull : w.isNull <;> simp [hnull, eq_comm]

/-! ### The insert -/

namespace Insert

variable {i : Insert}

/-- Rows that can be written and pass the check can be inserted, whatever their
digests. -/
theorem insertable_of_check {rows : List (List Value)} {ws : List RowWrite} {m : MemoryStore}
    (h : List.Forall₂ i.WrittenFor rows ws)
    (hcheck : checkFound ws ((ws.map (·.key)).map m.find?) = .ok ()) :
    Insertable i.home i.columns i.keyIndex rows m := by
  have hrow : ∀ row ∈ rows, row.length = i.columns.length ∧ (keyAt i.keyIndex row).isSome := by
    intro row hrow
    obtain ⟨w, -, hw⟩ := exists_of_forall₂ h hrow
    obtain ⟨hlen, -, huser⟩ := (keyOf_eq_ok _ _).mp hw.1
    exact ⟨hlen, by simp [huser]⟩
  obtain ⟨hdigests, habsent⟩ := (checkFound_eq_ok_iff m.find? ws).mp hcheck
  have hnodup := List.Nodup.of_map _ hdigests
  rw [keys_of_writes h] at hnodup habsent
  exact ⟨fun row hr => (hrow row hr).1, fun row hr => (hrow row hr).2, hnodup, habsent⟩

/-- Of rows that can be written, the check decides whether they are inserted. -/
theorem check_iff {rows : List (List Value)} {ws : List RowWrite} {m : MemoryStore}
    (h : List.Forall₂ i.WrittenFor rows ws)
    (hfree : DigestsDiffer (keysAt i.home i.keyIndex rows)) :
    checkFound ws ((ws.map (·.key)).map m.find?) = .ok () ↔
      Insertable i.home i.columns i.keyIndex rows m := by
  refine ⟨insertable_of_check h, fun hok => ?_⟩
  rw [checkFound_eq_ok_iff, keys_of_writes h]
  exact ⟨List.Nodup.map_on hfree hok.distinct, hok.absent⟩

/-- Rows that are written are inserted. -/
theorem putAll_inserted {rows : List (List Value)} {ws : List RowWrite} {m : MemoryStore}
    (h : List.Forall₂ i.WrittenFor rows ws)
    (hok : Insertable i.home i.columns i.keyIndex rows m) :
    Inserted i.home i.columns i.keyIndex rows m (m.putAll ws) where
  written := by
    intro row hrow user huser
    obtain ⟨w, hw, hkey, hbins⟩ := exists_of_forall₂ h hrow
    obtain ⟨hlen, hhome, huser'⟩ := (keyOf_eq_ok _ _).mp hkey
    have hat : w.key = ⟨i.home, user⟩ := by
      rw [huser] at huser'
      rw [← hhome, Option.some.inj huser']
    have hnodup : (ws.map (·.key)).Nodup := by
      rw [keys_of_writes h]
      exact hok.distinct
    have hnone : m.find? w.key = none :=
      hok.absent _ (hat ▸ mem_keysAt.mpr ⟨rfl, row, hrow, huser⟩)
    have hfind := find?_putAll_of_mem (m := m) hnodup hw
    rw [hnone, hbins, hat] at hfind
    exact ⟨_, hfind, find?_merge_binsOf hlen⟩
  others := by
    intro key hkey
    rw [← keys_of_writes h] at hkey
    exact find?_putAll_of_notMem hkey

/-- A check of the keys that were found, and the writes that it allows. -/
theorem run_checking_of_found {cl after : Client} {ws : List RowWrite} {found : List (Option Bins)}
    (h : Client.getBatch (ws.map (·.key)) cl = .ok found after) :
    (Insertion.checking ws).run cl =
      match checkFound ws found with
      | .ok _ => writeRows 0 ws after
      | .error e => .error e after := by
  simp only [Insertion.run, bind, EStateM.bind, h]
  cases checkFound ws found <;> rfl

/-- A check of the keys, and the writes that it allows. -/
theorem run_checking {cl : Client} {m : MemoryStore} (hm : cl.Serves m) (ws : List RowWrite) :
    (Insertion.checking ws).run cl =
      match checkFound ws ((ws.map (·.key)).map m.find?) with
      | .ok _ => writeRows 0 ws (cl.served (.getBatch (ws.map (·.key))))
      | .error e => .error e (cl.served (.getBatch (ws.map (·.key)))) :=
  run_checking_of_found (hm.call_eq (.getBatch (ws.map RowWrite.key)))

/-- A strict insert whose rows can all be written checks their keys; any other
fails before it asks for anything. -/
theorem run_strict (hmode : i.mode = .strict) (cl : Client) :
    (∃ ws, List.Forall₂ i.WrittenFor i.rows ws ∧ i.run cl = (Insertion.checking ws).run cl) ∨
      ∃ e, i.run cl = .error e cl ∧ ∃ row ∈ i.rows, ∀ key, i.keyOf row ≠ .ok key := by
  rcases i.writes_cases with ⟨ws, hws, hall⟩ | ⟨e, he, hrow⟩
  · refine .inl ⟨ws, hall, ?_⟩
    simp only [run, start, hws, hmode]
    rfl
  · refine .inr ⟨e, ?_, hrow⟩
    simp only [run, start, he]
    rfl

/-- **A strict insert that succeeds has inserted its rows.** -/
theorem inserted_of_run {cl : Client} {m : MemoryStore} (hm : cl.Serves m)
    (hmode : i.mode = .strict) {n : ℕ} {after : Client} (hrun : i.run cl = .ok n after) :
    Insertable i.home i.columns i.keyIndex i.rows m ∧ n = i.rows.length ∧
      ∃ m', after.Serves m' ∧ Inserted i.home i.columns i.keyIndex i.rows m m' := by
  rcases run_strict hmode cl with ⟨ws, hall, hchecking⟩ | ⟨e, he, -⟩
  · rw [hchecking, run_checking hm] at hrun
    cases hcheck : checkFound ws ((ws.map (·.key)).map m.find?) with
    | ok u =>
      have hok := insertable_of_check hall hcheck
      obtain ⟨last, hwrite, hserves⟩ :=
        writeRows_served ws 0 (hm.served (.getBatch (ws.map (·.key))))
      simp only [hcheck, hwrite, Nat.zero_add] at hrun
      cases hrun
      exact ⟨hok, hall.length_eq.symm, _, hserves, putAll_inserted hall hok⟩
    | error e =>
      rw [hcheck] at hrun
      cases hrun
  · rw [he] at hrun
    cases hrun

/-- A strict insert writes its rows if they can be inserted, and none of them
otherwise. -/
theorem run_cases {cl : Client} {m : MemoryStore} (hm : cl.Serves m) (hmode : i.mode = .strict)
    (hfree : DigestsDiffer (keysAt i.home i.keyIndex i.rows)) :
    match i.run cl with
    | .ok n after => Insertable i.home i.columns i.keyIndex i.rows m ∧ n = i.rows.length ∧
        ∃ m', after.Serves m' ∧ Inserted i.home i.columns i.keyIndex i.rows m m'
    | .error _ after => ¬ Insertable i.home i.columns i.keyIndex i.rows m ∧ after.Serves m := by
  cases hrun : i.run cl with
  | ok n after => exact inserted_of_run hm hmode hrun
  | error e after =>
    rcases run_strict hmode cl with ⟨ws, hall, hchecking⟩ | ⟨e', he, row, hrow, hno⟩
    · have hserved := hm.served (.getBatch (ws.map (·.key)))
      rw [hchecking, run_checking hm] at hrun
      cases hcheck : checkFound ws ((ws.map (·.key)).map m.find?) with
      | ok u =>
        obtain ⟨last, hwrite, -⟩ := writeRows_served ws 0 hserved
        simp only [hcheck, hwrite] at hrun
        cases hrun
      | error e' =>
        rw [hcheck] at hrun
        cases hrun
        refine ⟨fun hok => ?_, hserved⟩
        rw [(check_iff hall hfree).mpr hok] at hcheck
        cases hcheck
    · rw [he] at hrun
      cases hrun
      refine ⟨fun hok => ?_, hm⟩
      obtain ⟨user, huser⟩ := Option.isSome_iff_exists.mp (hok.literals row hrow)
      exact hno ⟨i.home, user⟩ ((keyOf_eq_ok _ _).mpr ⟨hok.lengths row hrow, rfl, huser⟩)

end Insert

/-- What is built of rows keeps them, and the place of the key column. -/
theorem Insert.ofRows_eq_ok {settings : Settings} {setName : String} {columns : List String}
    {rows : List (List Value)} {i : Insert}
    (h : Insert.ofRows settings setName columns rows = .ok i) :
    i.columns = columns ∧ i.rows = rows ∧ i.keyIndex = columns.idxOf settings.keyColumn ∧
      i.mode = .strict := by
  unfold Insert.ofRows at h
  cases hidx : columns.findIdx? (· == settings.keyColumn) with
  | none =>
    rw [hidx] at h
    cases h
  | some n =>
    rw [hidx] at h
    cases h
    exact ⟨rfl, rfl, (List.findIdx?_eq_some_iff_findIdx_eq.mp hidx).2.symm, rfl⟩

/-- **A strict insert writes all of its rows or none**, into whatever set it is
directed. It succeeds exactly if the rows can be inserted; then every key holds
its row and nothing else has changed, and a failure leaves the store as it
was. -/
theorem strict_insert_all_or_nothing (settings : Settings) (setName : String)
    (columns : List String) (rows : List (List Value)) (i : Insert)
    (hi : Insert.ofRows settings setName columns rows = .ok i) (home : SetAddress)
    (m : MemoryStore) (cl : Client) (hm : cl.Serves m)
    (hfree : DigestsDiffer (keysAt home (columns.idxOf settings.keyColumn) rows)) :
    let place := columns.idxOf settings.keyColumn
    match ({ i with home } : Insert).run cl with
    | .ok n after => Insertable home columns place rows m ∧ n = rows.length ∧
        ∃ m', after.store = .memory m' ∧ Inserted home columns place rows m m'
    | .error _ after => ¬ Insertable home columns place rows m ∧ after.store = .memory m := by
  intro place
  obtain ⟨hcolumns, hrows, hplace, hmode⟩ := Insert.ofRows_eq_ok hi
  have hfree' : DigestsDiffer (keysAt home i.keyIndex i.rows) := by rwa [hplace, hrows]
  have h := Insert.run_cases (i := { i with home }) hm hmode hfree'
  cases hrun : ({ i with home } : Insert).run cl with
  | ok n after =>
    rw [hrun] at h
    simp only [hcolumns, hrows, hplace] at h
    obtain ⟨hok, hn, m', hserves, hinserted⟩ := h
    exact ⟨hok, hn, m', hserves.store, hinserted⟩
  | error e after =>
    rw [hrun] at h
    simp only [hcolumns, hrows, hplace] at h
    exact ⟨h.1, h.2.store⟩

/-- Two rows into a set that has a record: one names a column twice, one holds
a null. -/
theorem strict_insert_of_two_rows :
    let columns := ["n", "PK", "n"]
    let rows : List (List Value) :=
      [[.int64 1, .int32 7, .int8 2], [.text "x", .text "a", .null]]
    let home : SetAddress := ⟨"test", "t"⟩
    let i : Insert := { home, columns, rows, keyIndex := 1, keyColumn := "PK" }
    let m := MemoryStore.put {} ⟨home, .int 1⟩ {}
    let cl : Client := { store := .memory m }
    Insert.ofRows {} "t" columns rows = .ok i ∧ cl.Serves m ∧
      DigestsDiffer (keysAt home (columns.idxOf "PK") rows) ∧
      (match i.run cl with | .ok n _ => n | .error _ _ => 0) = 2 ∧
      match i.run cl with
      | .ok n after => Insertable home columns (columns.idxOf "PK") rows m ∧ n = rows.length ∧
          ∃ m', after.store = .memory m' ∧
            Inserted home columns (columns.idxOf "PK") rows m m'
      | .error _ after => ¬ Insertable home columns (columns.idxOf "PK") rows m ∧
          after.store = .memory m := by
  intro columns rows home i m cl
  have hi : Insert.ofRows {} "t" columns rows = .ok i := rfl
  have hm : cl.Serves m := ⟨rfl, rfl⟩
  have hfree : DigestsDiffer (keysAt home (columns.idxOf "PK") rows) := by decide +kernel
  have hrun : (match i.run cl with | .ok n _ => n | .error _ _ => 0) = 2 := by decide +kernel
  exact ⟨hi, hm, hfree, hrun, strict_insert_all_or_nothing {} "t" columns rows i hi home m cl hm hfree⟩

end KeyedRows
