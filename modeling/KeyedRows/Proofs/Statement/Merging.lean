/-
# What a merging insert leaves in the store

All rows of an insert write under the same names, so a row undoes whatever an
earlier row of its key has written (`Bins.merge_merge`). Of the rows of one key only
the last counts (`MemoryStore.putAll_lastBy`), and rows that were written change nothing
when they are written again (`MemoryStore.putAll_putAll`), whatever the records held before
and however the keys are mixed.

Key definitions: `NamesBin`, `lastBy`, `MergedLast`.
Key theorem: **`ignoring_insert_keeps_last_rows`**.
-/
import KeyedRows.Proofs.Statement.Failing
import KeyedRows.Proofs.Statement.Interleaved

namespace KeyedRows

/-- A column other than that of the key has the name. -/
def NamesBin (columns : List String) (place : Nat) (name : String) : Prop :=
  ∃ j, j ≠ place ∧ columns[j]? = some name

/-- The elements of a list that no later element with the same key follows. -/
def lastBy {α κ : Type} [DecidableEq κ] (key : α → κ) (l : List α) : List α :=
  l.pwFilter fun a b => key a ≠ key b

/-- The second store is the first with the last row of each key merged into the
record of the key: that holds what the row writes, and under the other names what
it held. -/
structure MergedLast (home : SetAddress) (columns : List String) (place : Nat)
    (rows : List (List Value)) (m m' : MemoryStore) : Prop where
  merged : ∀ row ∈ lastBy (keyAt place) rows, ∀ user, keyAt place row = some user → ∃ bins,
    m'.find? ⟨home, user⟩ = some bins ∧ ∀ name v, bins.find? name = some v ↔
      Holds columns place row name v ∨
        (¬ NamesBin columns place name ∧ ((m.find? ⟨home, user⟩).getD {}).find? name = some v)
  others : ∀ key ∉ keysAt home place rows, m'.find? key = m.find? key

/-! ### Writes over writes -/

/-- The new bins have every name that the old ones have. -/
def Overwrites (new old : Bins) : Prop := ∀ name, new.find? name = none → old.find? name = none

/-- **A write undoes what a write under the same names has left.** -/
theorem Bins.merge_merge {stored old new : Bins} (h : Overwrites new old) :
    (stored.merge old).merge new = stored.merge new := by
  apply OrderedMap.ext_find?
  intro name
  rw [find?_merge, find?_merge, find?_merge]
  cases hnew : new.find? name with
  | some v => rfl
  | none => rw [h name hnew]

namespace MemoryStore

theorem put_put {key : Key} {old new : Bins} (h : Overwrites new old) (m : MemoryStore) :
    (m.put key old).put key new = m.put key new := by
  apply eq_of_find?
  intro k
  simp only [find?_put]
  by_cases hk : k = key
  · simp only [hk, if_true, Option.getD_some, Bins.merge_merge h]
  · simp only [hk, if_false]

/-- A write is undone by writes among which its key comes again. -/
theorem putAll_put_of_mem {key : Key} {bins : Bins} : ∀ (ws : List RowWrite) (m : MemoryStore),
    key ∈ ws.map (·.key) → (∀ w ∈ ws, Overwrites w.bins bins) →
      (m.put key bins).putAll ws = m.putAll ws
  | [], _, hkey, _ => by cases hkey
  | w :: ws, m, hkey, hover => by
    have hw : Overwrites w.bins bins := hover w List.mem_cons_self
    have hws : ∀ v ∈ ws, Overwrites v.bins bins := fun v hv => hover v (List.mem_cons_of_mem _ hv)
    by_cases hsame : key = w.key
    · subst hsame
      show ((m.put w.key bins).put w.key w.bins).putAll ws = (m.put w.key w.bins).putAll ws
      rw [put_put hw]
    · have hlater : key ∈ ws.map (·.key) := by
        rcases List.mem_cons.mp hkey with he | hmem
        · exact absurd he hsame
        · exact hmem
      calc (m.put key bins).putAll (w :: ws)
          = ((m.put key bins).put w.key w.bins).putAll ws := rfl
        _ = ((m.put w.key w.bins).put key bins).putAll ws := by rw [put_comm hsame]
        _ = (m.put w.key w.bins).putAll ws := putAll_put_of_mem ws _ hlater hws

/-- **Writes are undone by later writes to the same keys.** -/
theorem putAll_putAll {ws : List RowWrite} : ∀ (us : List RowWrite) (m : MemoryStore),
    (∀ u ∈ us, u.key ∈ ws.map (·.key)) → (∀ u ∈ us, ∀ w ∈ ws, Overwrites w.bins u.bins) →
      (m.putAll us).putAll ws = m.putAll ws
  | [], _, _, _ => rfl
  | u :: us, m, hkeys, hover => by
    have hrest := putAll_putAll us (m.put u.key u.bins)
      (fun v hv => hkeys v (List.mem_cons_of_mem _ hv))
      (fun v hv => hover v (List.mem_cons_of_mem _ hv))
    calc (m.putAll (u :: us)).putAll ws
        = ((m.put u.key u.bins).putAll us).putAll ws := rfl
      _ = (m.put u.key u.bins).putAll ws := hrest
      _ = m.putAll ws := putAll_put_of_mem ws m (hkeys u List.mem_cons_self)
          (hover u List.mem_cons_self)

end MemoryStore

/-! ### The last of each key -/

section

variable {α β κ μ : Type} [DecidableEq κ] [DecidableEq μ] {key : α → κ} {key' : β → μ}

theorem map_lastBy (l : List α) : (lastBy key l).map key = (l.map key).dedup :=
  (List.pwFilter_map (R := fun j k : κ => j ≠ k) key l).symm

theorem mem_map_lastBy {k : κ} {l : List α} : k ∈ (lastBy key l).map key ↔ k ∈ l.map key := by
  rw [map_lastBy, List.mem_dedup]

theorem lastBy_cons (a : α) (l : List α) : lastBy key (a :: l) =
    if key a ∈ l.map key then lastBy key l else a :: lastBy key l := by
  have hmem : (∀ b ∈ lastBy key l, key a ≠ key b) ↔ key a ∉ l.map key := by
    rw [← mem_map_lastBy, List.mem_map]
    constructor
    · rintro h ⟨b, hb, he⟩
      exact h b hb he.symm
    · intro h b hb he
      exact h ⟨b, hb, he.symm⟩
  unfold lastBy at hmem ⊢
  by_cases h : key a ∈ l.map key
  · rw [if_pos h, List.pwFilter_cons_of_neg fun hall => hmem.mp hall h]
  · rw [if_neg h, List.pwFilter_cons_of_pos (hmem.mpr h)]

variable {R : α → β → Prop}

omit [DecidableEq κ] [DecidableEq μ] in
/-- In lists whose elements correspond, and with them the keys, corresponding elements
have their keys together. -/
theorem mem_keys_iff (hkeys : ∀ a b a' b', R a b → R a' b' → (key a = key a' ↔ key' b = key' b'))
    {a : α} {b : β} (hab : R a b) {l : List α} {l' : List β} (h : List.Forall₂ R l l') :
    key a ∈ l.map key ↔ key' b ∈ l'.map key' := by
  induction h with
  | nil => simp
  | cons hcd _ ih =>
    rw [List.map_cons, List.map_cons, List.mem_cons, List.mem_cons, ih, hkeys _ _ _ _ hab hcd]

/-- The last ones of such lists correspond. -/
theorem forall₂_lastBy
    (hkeys : ∀ a b a' b', R a b → R a' b' → (key a = key a' ↔ key' b = key' b'))
    {l : List α} {l' : List β} (h : List.Forall₂ R l l') :
    List.Forall₂ R (lastBy key l) (lastBy key' l') := by
  induction h with
  | nil => exact .nil
  | cons hab hrest ih =>
    have hmem := mem_keys_iff hkeys hab hrest
    rw [lastBy_cons, lastBy_cons]
    split_ifs with hleft hright hright
    · exact ih
    · exact absurd (hmem.mp hleft) hright
    · exact absurd (hmem.mpr hright) hleft
    · exact .cons hab ih

end

/-- **Of the writes to one key the last counts.** -/
theorem MemoryStore.putAll_lastBy : ∀ (ws : List RowWrite) (m : MemoryStore),
    (∀ u ∈ ws, ∀ w ∈ ws, Overwrites w.bins u.bins) →
      m.putAll (lastBy RowWrite.key ws) = m.putAll ws
  | [], _, _ => rfl
  | w :: ws, m, hover => by
    have hrest : ∀ m : MemoryStore, m.putAll (lastBy RowWrite.key ws) = m.putAll ws := fun m =>
      putAll_lastBy ws m fun u hu v hv =>
        hover u (List.mem_cons_of_mem _ hu) v (List.mem_cons_of_mem _ hv)
    rw [lastBy_cons]
    by_cases h : w.key ∈ ws.map (·.key)
    · have hundone : (m.put w.key w.bins).putAll ws = m.putAll ws :=
        putAll_put_of_mem ws m h fun v hv =>
          hover w List.mem_cons_self v (List.mem_cons_of_mem _ hv)
      rw [if_pos h, hrest]
      exact hundone.symm
    · rw [if_neg h]
      exact hrest (m.put w.key w.bins)

/-! ### Rows and their writes -/

namespace Insert

variable {i : Insert} {rows : List (List Value)} {ws : List RowWrite} {row : List Value}
  {w : RowWrite}

theorem WrittenFor.length (h : i.WrittenFor row w) : row.length = i.columns.length :=
  ((keyOf_eq_ok row w.key).mp h.1).1

/-- Under which names a row writes the columns say. -/
theorem WrittenFor.find?_eq_none_iff (h : i.WrittenFor row w) (name : String) :
    w.bins.find? name = none ↔ ¬ NamesBin i.columns i.keyIndex name := by
  have hlength := h.length
  rw [h.2, binsOf, OrderedMap.find?_ofList, OrderedMap.lastUnder_eq_none_iff]
  constructor
  · rintro hnone ⟨j, hj, hname⟩
    have hlt : j < row.length := by
      have hcolumn := (List.getElem?_eq_some_iff.mp hname).1
      omega
    have hentry : (i.columns.zip row)[j]? = some (name, row[j]) :=
      List.getElem?_zip_eq_some.mpr ⟨hname, List.getElem?_eq_getElem hlt⟩
    exact hnone _ (List.mem_eraseIdx_iff_getElem?.mpr ⟨j, hj, hentry⟩) rfl
  · rintro hunnamed ⟨name', v⟩ hentry rfl
    obtain ⟨j, hj, he⟩ := List.mem_eraseIdx_iff_getElem?.mp hentry
    exact hunnamed ⟨j, hj, (List.getElem?_zip_eq_some.mp he).1⟩

/-- All rows write under the same names. -/
theorem overwrites_of_writtenFor (h : List.Forall₂ i.WrittenFor rows ws) :
    ∀ u ∈ ws, ∀ w ∈ ws, Overwrites w.bins u.bins := by
  have hnames : ∀ w ∈ ws, ∀ name, w.bins.find? name = none ↔
      ¬ NamesBin i.columns i.keyIndex name := by
    intro w hw
    obtain ⟨row, -, hrow⟩ := exists_of_forall₂ h.flip hw
    exact WrittenFor.find?_eq_none_iff hrow
  intro u hu w hw name hnone
  rw [hnames u hu, ← hnames w hw]
  exact hnone

/-- The last rows are written by the last writes. -/
theorem writtenFor_lastBy (h : List.Forall₂ i.WrittenFor rows ws) :
    List.Forall₂ i.WrittenFor (lastBy (keyAt i.keyIndex) rows) (lastBy RowWrite.key ws) := by
  refine forall₂_lastBy (fun row w row' w' hw hw' => ?_) h
  obtain ⟨-, hhome, huser⟩ := (keyOf_eq_ok row w.key).mp hw.1
  obtain ⟨-, hhome', huser'⟩ := (keyOf_eq_ok row' w'.key).mp hw'.1
  rw [huser, huser', Option.some.injEq]
  constructor
  · intro he
    show Key.mk w.key.home w.key.user = Key.mk w'.key.home w'.key.user
    rw [hhome, hhome', he]
  · intro he
    rw [he]

/-- A record that a row is merged into holds what the row writes, and under the
other names what it held. -/
theorem WrittenFor.find?_merge (h : i.WrittenFor row w) (stored : Bins) (name : String)
    (v : Value) : (stored.merge w.bins).find? name = some v ↔
      Holds i.columns i.keyIndex row name v ∨
        (¬ NamesBin i.columns i.keyIndex name ∧ stored.find? name = some v) := by
  have hnamed := h.find?_eq_none_iff name
  rw [← find?_merge_binsOf h.length, ← h.2, Bins.find?_merge, Bins.find?_merge]
  cases hw : w.bins.find? name with
  | none =>
    have hunnamed : ¬ NamesBin i.columns i.keyIndex name := hnamed.mp hw
    have hnone : ({} : Bins).find? name = none := OrderedMap.find?_empty name
    simp [hunnamed, hnone]
  | some x =>
    have hname : NamesBin i.columns i.keyIndex name := by
      by_contra hunnamed
      rw [hnamed.mpr hunnamed] at hw
      cases hw
    simp [hname]

/-- **Written rows leave the last of each key.** -/
theorem mergedLast_of_writes (h : List.Forall₂ i.WrittenFor rows ws) (m : MemoryStore) :
    MergedLast i.home i.columns i.keyIndex rows m (m.putAll ws) where
  merged := by
    intro row hrow user huser
    obtain ⟨w, hw, hwritten⟩ := exists_of_forall₂ (writtenFor_lastBy h) hrow
    obtain ⟨-, hhome, huser'⟩ := (keyOf_eq_ok row w.key).mp hwritten.1
    have hkey : w.key = ⟨i.home, user⟩ := by
      rw [huser, Option.some.injEq] at huser'
      rw [huser', ← hhome]
    have hnodup : ((lastBy RowWrite.key ws).map (·.key)).Nodup := by
      rw [map_lastBy]
      exact List.nodup_dedup _
    have hfind := find?_putAll_of_mem (m := m) hnodup hw
    rw [MemoryStore.putAll_lastBy ws m (overwrites_of_writtenFor h), hkey] at hfind
    exact ⟨_, hfind, hwritten.find?_merge _⟩
  others := by
    intro key hkey
    rw [← keys_of_writes h] at hkey
    exact find?_putAll_of_notMem hkey

end Insert

/-- Records keep what they hold under names that no row writes. -/
theorem MergedLast.keeps {home : SetAddress} {columns : List String} {place : ℕ}
    {rows : List (List Value)} {m m' : MemoryStore} (h : MergedLast home columns place rows m m')
    {key : Key} {bins : Bins} (hkey : m.find? key = some bins) :
    ∃ bins', m'.find? key = some bins' ∧
      ∀ name, ¬ NamesBin columns place name → bins'.find? name = bins.find? name := by
  by_cases hmem : key ∈ keysAt home place rows
  · obtain ⟨hhome, row, hrow, huser⟩ := mem_keysAt.mp hmem
    -- some row of this key is the last
    have hkeyed : keyAt place row ∈ (lastBy (keyAt place) rows).map (keyAt place) :=
      mem_map_lastBy.mpr (List.mem_map.mpr ⟨row, hrow, rfl⟩)
    obtain ⟨last, hlast, hsame⟩ := List.mem_map.mp hkeyed
    obtain ⟨bins', hfind, hholds⟩ := h.merged last hlast key.user (hsame.trans huser)
    rw [← hhome] at hfind hholds
    refine ⟨bins', hfind, fun name hunnamed => Option.ext fun v => ?_⟩
    have hnot : ¬ Holds columns place last name v := by
      rintro ⟨w, ⟨j, hj, hname, -⟩, -⟩
      exact hunnamed ⟨j, hj, hname⟩
    have hold : m.find? ⟨key.home, key.user⟩ = some bins := hkey
    rw [hholds, hold]
    simp [hnot, hunnamed]
  · exact ⟨bins, (h.others key hmem).trans hkey, fun _ _ => rfl⟩

/-! ### The insert -/

namespace Insert

variable {i : Insert} {ws : List RowWrite}

/-- Rows that are accepted are written. -/
theorem exists_writes (h : ∀ row ∈ i.rows, i.Accepts row) :
    ∃ ws, List.Forall₂ i.WrittenFor i.rows ws := by
  rcases i.writes_cases with ⟨ws, -, hall⟩ | ⟨e, -, row, hrow, hno⟩
  · exact ⟨ws, hall⟩
  · obtain ⟨key, hkey⟩ := accepts_iff.mp (h row hrow)
    exact absurd hkey (hno key)

/-- What is written for rows, only they tell. -/
theorem writes_of_forall₂ (h : List.Forall₂ i.WrittenFor i.rows ws) : i.writes = .ok ws := by
  have hunique : Relator.RightUnique i.WrittenFor := by
    rintro row ⟨key, bins⟩ ⟨key', bins'⟩ ⟨hkey, hbins⟩ ⟨hkey', hbins'⟩
    have hsame : key = key' := Except.ok.inj (hkey.symm.trans hkey')
    simp only at hbins hbins'
    rw [hsame, hbins, hbins']
  rcases i.writes_cases with ⟨ws', hws, hall⟩ | ⟨e, -, row, hrow, hno⟩
  · rw [hws, List.right_unique_forall₂' hunique hall h]
  · obtain ⟨w, -, hkey, -⟩ := exists_of_forall₂ h hrow
    exact absurd hkey (hno w.key)

/-- **An insert that ignores existing keys writes all its rows.** -/
theorem run_ignore (hmode : i.mode = .ignore) (h : List.Forall₂ i.WrittenFor i.rows ws)
    {cl : Client} {m : MemoryStore} (hm : cl.Serves m) :
    ∃ after, i.run cl = .ok i.rows.length after ∧ after.Serves (m.putAll ws) := by
  obtain ⟨after, hrun, hserves⟩ := writeRows_served ws 0 hm
  refine ⟨after, ?_, hserves⟩
  rw [Nat.zero_add, ← h.length_eq] at hrun
  simp only [run, start, writes_of_forall₂ h, hmode]
  exact hrun

end Insert

/-- **An insert that ignores existing keys keeps the last row of each key.** If
every row has a value for every column and a key, all rows are written. The store
is then what writing only the last row of each key would have made of it, an
integer of 32 bits and one of 64 being one key. Doing the same again changes
nothing, and what existing records hold under names that are no columns stays. -/
theorem ignoring_insert_keeps_last_rows (settings : Settings) (setName : String)
    (columns : List String) (rows : List (List Value)) (i : Insert)
    (hi : Insert.ofRows settings setName columns rows = .ok i) (home : SetAddress)
    (m : MemoryStore) (cl : Client) (hm : cl.Serves m)
    (hrows : ∀ row ∈ rows, row.length = columns.length ∧
      (keyAt (columns.idxOf settings.keyColumn) row).isSome) :
    let place := columns.idxOf settings.keyColumn
    let insert : Insert := { i with home, mode := .ignore }
    ∃ m' after, insert.run cl = .ok rows.length after ∧ after.store = .memory m' ∧
      MergedLast home columns place rows m m' ∧
      (∃ n final, ({ insert with rows := lastBy (keyAt place) rows } : Insert).run cl = .ok n final ∧
        final.store = .memory m') ∧
      (∃ final, insert.run after = .ok rows.length final ∧ final.store = .memory m') ∧
      ∀ key bins, m.find? key = some bins → ∃ bins', m'.find? key = some bins' ∧
        ∀ name ∉ columns, bins'.find? name = bins.find? name := by
  intro place insert
  obtain ⟨hcolumns, hrowsOf, hplace, -⟩ := Insert.ofRows_eq_ok hi
  have haccepted : ∀ row ∈ insert.rows, insert.Accepts row := by
    intro row hrow
    obtain ⟨hlength, hliteral⟩ := hrows row (hrowsOf ▸ hrow)
    exact ⟨hlength.trans (congrArg List.length hcolumns.symm), by rw [← hplace] at hliteral; exact hliteral⟩
  obtain ⟨ws, hall⟩ := Insert.exists_writes haccepted
  have hlength : insert.rows.length = rows.length := congrArg List.length hrowsOf
  have hover := Insert.overwrites_of_writtenFor hall
  obtain ⟨after, hrun, hserves⟩ := Insert.run_ignore rfl hall hm
  -- the rows that were written are written again
  obtain ⟨final, hagain, hfinal⟩ := Insert.run_ignore rfl hall hserves
  have hsame : (m.putAll ws).putAll ws = m.putAll ws :=
    MemoryStore.putAll_putAll ws m (fun w hw => List.mem_map.mpr ⟨w, hw, rfl⟩) hover
  have hlast : List.Forall₂ insert.WrittenFor (lastBy (keyAt place) rows)
      (lastBy RowWrite.key ws) := by
    have hlast := Insert.writtenFor_lastBy hall
    rwa [show insert.rows = rows from hrowsOf, show insert.keyIndex = place from hplace] at hlast
  obtain ⟨alone, hrunLast, haloneServes⟩ :=
    Insert.run_ignore (i := { insert with rows := lastBy (keyAt place) rows }) rfl hlast hm
  rw [MemoryStore.putAll_lastBy ws m hover] at haloneServes
  have hmerged := Insert.mergedLast_of_writes hall m
  rw [show insert.rows = rows from hrowsOf, show insert.keyIndex = place from hplace,
    show insert.columns = columns from hcolumns] at hmerged
  refine ⟨m.putAll ws, after, hlength ▸ hrun, hserves.store, hmerged,
    ⟨_, alone, hrunLast, haloneServes.store⟩, ⟨final, hlength ▸ hagain, ?_⟩, ?_⟩
  · rw [hfinal.store, hsame]
  · intro key bins hkey
    obtain ⟨bins', hfind, hkept⟩ := hmerged.keeps hkey
    refine ⟨bins', hfind, fun name hname => hkept name ?_⟩
    rintro ⟨j, -, hj⟩
    exact hname (List.mem_of_getElem? hj)

/-- A row for the integer 7 in 32 bits and a later one in 64 bits are for one record,
of which the earlier row leaves nothing. The later has a `Null` for a bin of the
record, the record has a bin that no row names, and one column is named twice. -/
theorem later_width_is_kept :
    let columns := ["n", "PK", "m", "n"]
    let rows : List (List Value) := [[.int8 1, .int32 7, .text "a", .int8 2],
      [.int8 3, .text "b", .null, .int8 4], [.int8 5, .int64 7, .null, .int8 6]]
    let i : Insert :=
      { home := ⟨"test", "t"⟩, columns, rows, keyIndex := 1, keyColumn := "PK" }
    let m := MemoryStore.put {} ⟨i.home, .int 7⟩
      (.ofList [("city", .text "rome"), ("m", .text "z")])
    let c : Client := { store := .memory m }
    let left := (m.put ⟨i.home, .int 7⟩ (.ofList [("n", .int64 6), ("m", .null)])).put
      ⟨i.home, .text "b"⟩ (.ofList [("n", .int64 4)])
    Insert.ofRows {} "t" columns rows = .ok i ∧ c.Serves m ∧
      (∀ row ∈ rows, row.length = columns.length ∧
        (keyAt (columns.idxOf ({} : Settings).keyColumn) row).isSome) ∧
      lastBy (keyAt 1) rows = rows.drop 1 ∧
      ∃ after, ({ i with mode := .ignore } : Insert).run c = .ok 3 after ∧
        after.store = .memory left ∧ MergedLast i.home columns 1 rows m left := by
  intro columns rows i m c left
  have hi : Insert.ofRows {} "t" columns rows = .ok i := rfl
  have hm : c.Serves m := ⟨rfl, rfl⟩
  have hrows : ∀ row ∈ rows, row.length = columns.length ∧
      (keyAt (columns.idxOf ({} : Settings).keyColumn) row).isSome := by decide +kernel
  have hlast : lastBy (keyAt 1) rows = rows.drop 1 := by decide +kernel
  have hleft : (leaves ({ i with mode := .ignore } : Insert).run c).store = .memory left := by
    decide +kernel
  obtain ⟨m', after, hrun, hstore, hmerged, -⟩ :=
    ignoring_insert_keeps_last_rows {} "t" columns rows i hi i.home m c hm hrows
  have hsame : m' = left := by
    have hafter : leaves ({ i with mode := .ignore } : Insert).run c = after := by
      rw [leaves, hrun]
    rw [hafter, hstore] at hleft
    exact Store.memory.inj hleft
  exact ⟨hi, hm, hrows, hlast, after, hrun, hsame ▸ hstore, hsame ▸ hmerged⟩

end KeyedRows
