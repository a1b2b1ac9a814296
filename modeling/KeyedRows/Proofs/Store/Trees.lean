/-
# A store of trees answers as a store in memory

As long as no two sets share the name of a tree, a record lies in its tree
under bytes that no other key has, so the trees hold what a store in memory
holds (`Mirrors`). The bytes compare as the keys do, so a tree is walked in
the order of the user keys (`Mirrors.entries_eq`), and what is loaded from it is
what the store in memory loads (`Mirrors.load_eq`). Every call is therefore
answered alike, and leaves two stores that hold the same.

Key definitions: `Call.homes`, `NamedApart`, `Mirrors`, `Store.answers`.
Key theorem: **`trees_answer_as_memory`**.
-/
import KeyedRows.Proofs.Key.Bytes
import KeyedRows.Proofs.OrderedMap
import KeyedRows.Store.Basic

namespace KeyedRows

/-- The sets that a call is about. -/
def Call.homes : Call → List SetAddress
  | .get key => [key.home]
  | .getBatch keys => keys.map (·.home)
  | .put key _ => [key.home]
  | .scan home => [home]
  | .query q => [q.home]
  | .queryAggregate q _ => [q.home]
  | .anyRecord home => [home]

/-- No two of these sets share the name of a tree. -/
def NamedApart (homes : List SetAddress) : Prop :=
  ∀ a ∈ homes, ∀ b ∈ homes, a.treeName = b.treeName → a = b

instance (homes : List SetAddress) : Decidable (NamedApart homes) :=
  inferInstanceAs (Decidable (∀ a ∈ homes, ∀ b ∈ homes, a.treeName = b.treeName → a = b))

/-- The trees hold what the store in memory holds in these sets, and nothing
else. -/
structure Mirrors (homes : List SetAddress) (m : MemoryStore) (t : TreeStore) : Prop where
  found : ∀ key : Key, key.home ∈ homes → t.find? key = m.find? key
  placed : ∀ place bins, t.places.find? place = some bins →
    ∃ key : Key, key.home ∈ homes ∧ key.place = place

variable {homes : List SetAddress} {m : MemoryStore} {t : TreeStore}

/-- Keys of sets with names of their own lie at places of their own. -/
theorem NamedApart.place_inj (h : NamedApart homes) {j k : Key} (hj : j.home ∈ homes)
    (hk : k.home ∈ homes) (hp : j.place = k.place) : j = k := by
  obtain ⟨home, user⟩ := j
  obtain ⟨home', user'⟩ := k
  obtain ⟨htree, hbytes⟩ := TreePlace.mk.inj hp
  have hhome : home = home' := h home hj home' hk htree
  have huser : user = user' := by
    have hread := congrArg UserKey.ofBytes hbytes
    rw [UserKey.ofBytes_toBytes, UserKey.ofBytes_toBytes] at hread
    exact Except.ok.inj hread
  rw [hhome, huser]

/-- Places in one tree compare as the user keys do. -/
theorem compare_place {j k : Key} (h : j.home = k.home) :
    compare j.place k.place = compare j.user k.user := by
  have hparts : compare j.place k.place = (compare j.home.treeName k.home.treeName).then
      (compare j.user.toBytes k.user.toBytes) := rfl
  rw [hparts, h, UserKey.compare_toBytes, Std.ReflOrd.compare_self, Ordering.eq_then]

namespace Mirrors

/-- Stores that hold nothing hold the same. -/
theorem empty : Mirrors homes {} {} where
  found _ _ := rfl
  placed _ _ h := by cases h

/-- **A write leaves stores that hold the same.** -/
theorem put (h : Mirrors homes m t) (hapart : NamedApart homes) {j : Key} (hj : j.home ∈ homes)
    (bins : Bins) : Mirrors homes (m.put j bins) (t.put j bins) where
  found k hk := by
    have hplace : k.place = j.place ↔ k = j :=
      ⟨hapart.place_inj hk hj, fun hkj => by rw [hkj]⟩
    rw [TreeStore.find?_put, MemoryStore.find?_put, h.found j hj, h.found k hk]
    simp only [hplace]
  placed place bins' hfind := by
    rw [TreeStore.put, OrderedMap.find?_insert] at hfind
    split_ifs at hfind with hc
    · exact ⟨j, hj, (Std.LawfulEqOrd.eq_of_compare hc).symm⟩
    · exact h.placed place bins' hfind

/-- The entries of a tree are the records of its set, by place. -/
theorem entries_eq (h : Mirrors homes m t) (hapart : NamedApart homes) {home : SetAddress}
    (hhome : home ∈ homes) :
    t.entriesOf home =
      (m.records.entries.filter fun e => e.1.home = home).map fun e => (e.1.place, e.2) := by
  refine OrderedMap.entries_eq_of_mem (t.places.ascending.filter _) ?_ fun place bins => ?_
  · rw [List.pairwise_map]
    refine List.Pairwise.imp_of_mem ?_ (m.records.ascending.filter _)
    rintro ⟨j, b⟩ ⟨k, c⟩ hj hk hlt
    have ej : j.home = home := by simpa using (List.mem_filter.mp hj).2
    have ek : k.home = home := by simpa using (List.mem_filter.mp hk).2
    -- both keys are of one set, so their user keys decide
    have hparts : compare j k = (compare j.home k.home).then (compare j.user k.user) := rfl
    rw [hparts, ej, ek, Std.ReflOrd.compare_self, Ordering.eq_then] at hlt
    rw [compare_place (ej.trans ek.symm), hlt]
  · rw [TreeStore.entriesOf, List.mem_filter, OrderedMap.mem_entries_iff, decide_eq_true_eq,
      List.mem_map]
    constructor
    · rintro ⟨hfind, htree⟩
      obtain ⟨key, hkey, rfl⟩ := h.placed place bins hfind
      have hof : key.home = home := hapart key.home hkey home hhome htree
      have hin : m.records.find? key = some bins := (h.found key hkey).symm.trans hfind
      exact ⟨(key, bins), List.mem_filter.mpr ⟨OrderedMap.mem_entries_iff.mpr hin, by simpa⟩, rfl⟩
    · rintro ⟨⟨key, bins'⟩, hmem, he⟩
      obtain ⟨rfl, rfl⟩ := Prod.mk.inj he
      obtain ⟨hin, hof⟩ := List.mem_filter.mp hmem
      have hof : key.home = home := by simpa using hof
      have hfind : m.find? key = some bins' := OrderedMap.mem_entries_iff.mp hin
      exact ⟨(h.found key (hof ▸ hhome)).trans hfind, by rw [← hof]; rfl⟩

/-- The bytes at the place of a key are read as its user key. -/
theorem recordOf_place (home : SetAddress) (key : Key) (bins : Bins) :
    TreeStore.recordOf home (key.place, bins) = .ok ⟨some ⟨home, key.user⟩, bins⟩ := by
  simp only [TreeStore.recordOf, Key.place, UserKey.ofBytes_toBytes]
  rfl

/-- The records of a set, with the set named. -/
theorem recordsOf_eq (m : MemoryStore) (home : SetAddress) : m.recordsOf home =
    (m.records.entries.filter fun e => e.1.home = home).map
      fun e => ⟨some ⟨home, e.1.user⟩, e.2⟩ := by
  refine List.map_congr_left fun e he => ?_
  have hof : e.1.home = home := by simpa using (List.mem_filter.mp he).2
  rw [← hof]

/-- **The records of a set are read from its tree**, in the order of their user
keys. -/
theorem load_eq (h : Mirrors homes m t) (hapart : NamedApart homes) {home : SetAddress}
    (hhome : home ∈ homes) (filter : Option Filter) :
    (Store.trees t).load home filter = (Store.memory m).load home filter := by
  have hread : TreeStore.recordOf home ∘ (fun e : Key × Bins => (e.1.place, e.2)) =
      fun e => (pure ⟨some ⟨home, e.1.user⟩, e.2⟩ : Except Error Record) :=
    funext fun e => recordOf_place home e.1 e.2
  rw [Store.load, Store.load, TreeStore.load, h.entries_eq hapart hhome, recordsOf_eq,
    List.filter_map, List.filter_map, List.mapM_map, hread, List.mapM_pure]
  rfl

/-- The first record of a set is the first in its tree. -/
theorem first?_eq (h : Mirrors homes m t) (hapart : NamedApart homes) {home : SetAddress}
    (hhome : home ∈ homes) : (Store.trees t).first? home = (Store.memory m).first? home := by
  rw [Store.first?, Store.first?, TreeStore.first?, h.entries_eq hapart hhome, recordsOf_eq,
    List.head?_map, List.head?_map]
  cases (m.records.entries.filter fun e => e.1.home = home).head? with
  | none => rfl
  | some e =>
    simp only [Option.map_some, Option.mapM_some, recordOf_place]
    rfl

end Mirrors

/-! ### Answers -/

namespace Store

/-- The answers to calls that are made one after the other. A stream is the
list of the records that it delivers. -/
def answers (s : Store) : List Call → List ((k : Call) × Except Error k.Result)
  | [] => []
  | k :: ks => ⟨k, s.answer k⟩ :: (s.after k).answers ks

/-- A call is answered alike by stores that find the same under its keys and load
the same from its sets. -/
theorem answer_congr {s s' : Store} {k : Call}
    (hfound : ∀ key : Key, key.home ∈ k.homes → s.find? key = s'.find? key)
    (hload : ∀ home ∈ k.homes, ∀ filter, s.load home filter = s'.load home filter)
    (hfirst : ∀ home ∈ k.homes, s.first? home = s'.first? home) :
    s.answer k = s'.answer k := by
  cases k with
  | get key => simp only [answer, hfound key (by simp [Call.homes])]
  | getBatch keys =>
    have hfounds : keys.map s.find? = keys.map s'.find? :=
      List.map_congr_left fun key hkey => hfound key (List.mem_map.mpr ⟨key, hkey, rfl⟩)
    simp only [answer, hfounds]
  | put key bins => rfl
  | scan home => exact hload home (by simp [Call.homes]) none
  | query q => exact hload q.home (by simp [Call.homes]) q.filter
  | queryAggregate q a => simp only [answer, hload q.home (by simp [Call.homes])]
  | anyRecord home => exact hfirst home (by simp [Call.homes])

/-- Stores in a relation that the calls keep, and under which each is answered
alike, answer all of them alike. -/
theorem answers_of_related {R : Store → Store → Prop} : ∀ {calls : List Call},
    (∀ k ∈ calls, ∀ s s', R s s' → s.answer k = s'.answer k ∧ R (s.after k) (s'.after k)) →
      ∀ {s s' : Store}, R s s' → s.answers calls = s'.answers calls
  | [], _, _, _, _ => rfl
  | k :: ks, hcalls, s, s', h => by
    obtain ⟨hanswer, hafter⟩ := hcalls k List.mem_cons_self s s' h
    have hrest : (s.after k).answers ks = (s'.after k).answers ks :=
      answers_of_related (fun k' hk' => hcalls k' (List.mem_cons_of_mem _ hk')) hafter
    rw [answers, answers, hanswer, hrest]

/-- Stores that hold the same in the sets of a call answer it alike. -/
theorem answer_alike (h : Mirrors homes m t) (hapart : NamedApart homes) {k : Call}
    (hk : ∀ home ∈ k.homes, home ∈ homes) : (trees t).answer k = (memory m).answer k :=
  answer_congr (fun key hkey => h.found key (hk key.home hkey))
    (fun home hhome => h.load_eq hapart (hk home hhome))
    fun home hhome => h.first?_eq hapart (hk home hhome)

/-- A call leaves stores that hold the same. -/
theorem after_alike (h : Mirrors homes m t) (hapart : NamedApart homes) {k : Call}
    (hk : ∀ home ∈ k.homes, home ∈ homes) :
    ∃ m' t', Mirrors homes m' t' ∧ (trees t).after k = trees t' ∧ (memory m).after k = memory m' := by
  cases k with
  | put key bins => exact ⟨_, _, h.put hapart (hk key.home (by simp [Call.homes])) bins, rfl, rfl⟩
  | get | getBatch | scan | query | queryAggregate | anyRecord => exact ⟨m, t, h, rfl, rfl⟩

/-- **Stores that hold the same answer calls alike**, one after the other. -/
theorem answers_alike (hapart : NamedApart homes) (calls : List Call) (h : Mirrors homes m t)
    (hcalls : ∀ k ∈ calls, ∀ home ∈ k.homes, home ∈ homes) :
    (trees t).answers calls = (memory m).answers calls := by
  let R (s s' : Store) : Prop := ∃ m t, Mirrors homes m t ∧ s = trees t ∧ s' = memory m
  have hkeep : ∀ k ∈ calls, ∀ s s', R s s' → s.answer k = s'.answer k ∧
      R (s.after k) (s'.after k) := by
    rintro k hk _ _ ⟨m, t, h, rfl, rfl⟩
    exact ⟨answer_alike h hapart (hcalls k hk), after_alike h hapart (hcalls k hk)⟩
  exact answers_of_related hkeep ⟨m, t, h, rfl, rfl⟩

end Store

/-- **A store of trees answers every sequence of calls as a store in memory
does**, if no two of the sets that they are about share the name of a tree. -/
theorem trees_answer_as_memory (calls : List Call) (h : NamedApart (calls.flatMap Call.homes)) :
    (Store.trees {}).answers calls = (Store.memory {}).answers calls :=
  Store.answers_alike h calls .empty fun k hk _ hhome => List.mem_flatMap.mpr ⟨k, hk, hhome⟩

/-- Keys of all three kinds, negative ones among them, in two sets whose names
run together in different places. -/
theorem trees_answer_calls_on_two_sets :
    let dotted : SetAddress := ⟨"x.y", "z"⟩
    let plain : SetAddress := ⟨"x", "yz"⟩
    let calls : List Call :=
      [.put ⟨dotted, .bytes [0, 255]⟩ (.ofList [("n", .int8 1)]),
        .put ⟨dotted, .int 3⟩ (.ofList [("n", .int16 2), ("city", .text "rome")]),
        .put ⟨dotted, .int (-3)⟩ (.ofList [("n", .null)]),
        .put ⟨plain, .text "a"⟩ (.ofList [("n", .int64 4)]),
        .put ⟨dotted, .int 3⟩ (.ofList [("city", .null)]),
        .getBatch [⟨dotted, .int 3⟩, ⟨plain, .int 3⟩], .scan dotted,
        .query { home := dotted, filter := some (.within "n" 2 9) },
        .queryAggregate { home := plain } { fields := ["n"], countAs := some "size" },
        .anyRecord dotted]
    NamedApart (calls.flatMap Call.homes) ∧
      (Store.trees {}).answers calls = (Store.memory {}).answers calls := by
  intro dotted plain calls
  have hapart : NamedApart (calls.flatMap Call.homes) := by decide +kernel
  exact ⟨hapart, trees_answer_as_memory calls hapart⟩

/-- Names that run together at the dot are one tree. -/
example : ¬ NamedApart [⟨"x.y", "z"⟩, ⟨"x", "y.z"⟩] := by decide +kernel

end KeyedRows
