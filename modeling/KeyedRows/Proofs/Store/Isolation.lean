/-
# Sets in byte trees

A tree belongs to every set whose namespace and name run together into its name.
What a call on a set is answered with depends on the tree of that name alone
(`SameTree.answers`), and a write touches no other tree (`sameTree_put`), so sets
whose trees have different names do not see each other's writes. Sets that share
a tree see all of them, as they share its keys (`exists_write_seen`): two sets are
isolated exactly if their trees have different names.

Key definitions: `SetAddress.writes`, `SameTree`.
Key theorem: **`isolated_iff_treeName_ne`**.
-/
import KeyedRows.Proofs.Store.Memory
import KeyedRows.Proofs.Store.Trees

namespace KeyedRows

/-- Writes to records of a set, as calls. -/
def SetAddress.writes (home : SetAddress) (ws : List (UserKey × Bins)) : List Call :=
  ws.map fun w => .put ⟨home, w.1⟩ w.2

/-- The store after calls. -/
def Store.afterAll (s : Store) (calls : List Call) : Store := calls.foldl Store.after s

/-- The stores hold the same in the tree of this name. -/
def SameTree (name : String) (t u : TreeStore) : Prop :=
  ∀ place, place.tree = name → t.places.find? place = u.places.find? place

variable {name : String} {t u : TreeStore} {home : SetAddress}

/-- **A write touches no tree but its own.** -/
theorem sameTree_put {key : Key} (h : key.home.treeName ≠ name) (t : TreeStore) (bins : Bins) :
    SameTree name (t.put key bins) t := by
  intro place hplace
  have hne : compare place key.place ≠ .eq := by
    intro hc
    apply h
    rw [← hplace, Std.LawfulEqOrd.eq_of_compare hc]
    rfl
  rw [TreeStore.put, OrderedMap.find?_insert, if_neg hne]

namespace SameTree

theorem trans {v : TreeStore} (h : SameTree name t u) (k : SameTree name u v) :
    SameTree name t v := fun place hplace => (h place hplace).trans (k place hplace)

theorem find? (h : SameTree name t u) {key : Key} (hkey : key.home.treeName = name) :
    t.find? key = u.find? key := h key.place hkey

/-- The same write leaves stores the same in its tree. -/
theorem put (h : SameTree name t u) {key : Key} (hkey : key.home.treeName = name) (bins : Bins) :
    SameTree name (t.put key bins) (u.put key bins) := by
  intro place hplace
  simp only [TreeStore.put, OrderedMap.find?_insert, h.find? hkey, h place hplace]

/-- The entries of a set are those of its tree alone. -/
theorem entriesOf (h : SameTree name t u) (hhome : home.treeName = name) :
    t.entriesOf home = u.entriesOf home := by
  apply OrderedMap.entries_eq_of_mem (t.places.ascending.filter _) (u.places.ascending.filter _)
  intro place bins
  simp only [List.mem_filter, OrderedMap.mem_entries_iff, decide_eq_true_eq]
  apply and_congr_left
  intro htree
  rw [h place (htree.trans hhome)]

/-- A call is answered from the tree of its sets. -/
theorem answer (h : SameTree name t u) {k : Call} (hk : ∀ home ∈ k.homes, home.treeName = name) :
    (Store.trees t).answer k = (Store.trees u).answer k := by
  refine Store.answer_congr ?_ ?_ ?_
  · intro key hkey
    exact h.find? (hk key.home hkey)
  · intro home hhome filter
    simp only [Store.load, TreeStore.load, h.entriesOf (hk home hhome)]
  · intro home hhome
    simp only [Store.first?, TreeStore.first?, h.entriesOf (hk home hhome)]

theorem after (h : SameTree name t u) {k : Call} (hk : ∀ home ∈ k.homes, home.treeName = name) :
    ∃ t' u', SameTree name t' u' ∧ (Store.trees t).after k = .trees t' ∧
      (Store.trees u).after k = .trees u' := by
  cases k with
  | put key bins => exact ⟨_, _, h.put (hk key.home (by simp [Call.homes])) bins, rfl, rfl⟩
  | get | getBatch | scan | query | queryAggregate | anyRecord => exact ⟨t, u, h, rfl, rfl⟩

/-- **Calls are answered from the tree of their sets**, one after the other. -/
theorem answers (h : SameTree name t u) {calls : List Call}
    (hcalls : ∀ k ∈ calls, ∀ home ∈ k.homes, home.treeName = name) :
    (Store.trees t).answers calls = (Store.trees u).answers calls := by
  let R (s s' : Store) : Prop := ∃ t u, SameTree name t u ∧ s = .trees t ∧ s' = .trees u
  have hkeep : ∀ k ∈ calls, ∀ s s', R s s' → s.answer k = s'.answer k ∧
      R (s.after k) (s'.after k) := by
    rintro k hk _ _ ⟨t, u, h, rfl, rfl⟩
    exact ⟨h.answer (hcalls k hk), h.after (hcalls k hk)⟩
  exact Store.answers_of_related hkeep ⟨t, u, h, rfl, rfl⟩

end SameTree

/-! ### Writes to another set -/

/-- Calls leave a store of trees one. -/
theorem Store.exists_trees_afterAll (calls : List Call) (t : TreeStore) :
    ∃ u, (Store.trees t).afterAll calls = .trees u := by
  induction calls generalizing t with
  | nil => exact ⟨t, rfl⟩
  | cons k ks ih =>
    obtain ⟨t', ht'⟩ : ∃ t', (Store.trees t).after k = .trees t' := by
      cases k <;> exact ⟨_, rfl⟩
    rw [Store.afterAll, List.foldl_cons, ht']
    exact ih t'

/-- Writes to a set with another tree leave a tree as it was. -/
theorem sameTree_afterAll {a : SetAddress} (h : a.treeName ≠ name) : ∀ (ws : List (UserKey × Bins))
    (t : TreeStore), ∃ u, (Store.trees t).afterAll (a.writes ws) = .trees u ∧ SameTree name u t
  | [], t => ⟨t, rfl, fun _ _ => rfl⟩
  | (user, bins) :: ws, t => by
    obtain ⟨u, hu, hsame⟩ := sameTree_afterAll h ws (t.put ⟨a, user⟩ bins)
    exact ⟨u, hu, hsame.trans (sameTree_put h t bins)⟩

/-- **In a shared tree every key of the one set is a key of the other**, and some
write to it is seen there, whatever the tree holds. -/
theorem exists_write_seen {a b : SetAddress} (h : a.treeName = b.treeName) (t : TreeStore)
    (user : UserKey) : ∃ bins, (t.put ⟨a, user⟩ bins).find? ⟨b, user⟩ ≠ t.find? ⟨b, user⟩ := by
  have hplace : (Key.mk b user).place = (Key.mk a user).place := by
    simp only [Key.place, h]
  have hfind : t.find? ⟨b, user⟩ = t.find? ⟨a, user⟩ := by
    simp only [TreeStore.find?, hplace]
  -- a value that the record does not hold under the name
  obtain ⟨v, hnew⟩ : ∃ v : Bool,
      ((t.find? ⟨a, user⟩).getD {}).find? "n" ≠ some (.bool v) := by
    by_cases htrue : ((t.find? ⟨a, user⟩).getD {}).find? "n" = some (.bool true)
    · exact ⟨false, by simp [htrue]⟩
    · exact ⟨true, htrue⟩
  refine ⟨.ofList [("n", .bool v)], fun heq => hnew ?_⟩
  rw [TreeStore.find?_put, if_pos hplace, hfind] at heq
  have hwritten : (OrderedMap.ofList [("n", Value.bool v)]).find? "n" = some (.bool v) := by
    simp [OrderedMap.find?_ofList, OrderedMap.lastUnder]
  rw [← heq, Option.getD_some, Bins.find?_merge, hwritten]
  rfl

/-- **Two sets are isolated exactly if their trees have different names.** Whatever
calls a store of trees has served: writes to the one set change no answer to any
calls on the other, if and only if namespace and name, with a point between them,
are two texts and not one. -/
theorem isolated_iff_treeName_ne (history : List Call) (a b : SetAddress) :
    let s := (Store.trees {}).afterAll history
    (∀ (ws : List (UserKey × Bins)) (calls : List Call),
        (∀ k ∈ calls, ∀ home ∈ k.homes, home = b) →
          (s.afterAll (a.writes ws)).answers calls = s.answers calls) ↔
      a.treeName ≠ b.treeName := by
  intro s
  obtain ⟨t, hs⟩ : ∃ t, s = .trees t := Store.exists_trees_afterAll history {}
  rw [hs]
  constructor
  · intro hisolated hname
    obtain ⟨bins, hseen⟩ := exists_write_seen hname t (.int 0)
    have hget := hisolated [(.int 0, bins)] [.get ⟨b, .int 0⟩] (by simp [Call.homes])
    apply hseen
    simpa [SetAddress.writes, Store.afterAll, Store.after, Store.put, Store.answers, Store.answer,
      Store.find?] using hget
  · intro hname ws calls hcalls
    obtain ⟨u, hu, hsame⟩ := sameTree_afterAll hname ws t
    rw [hu]
    apply hsame.answers
    intro k hk home hhome
    rw [hcalls k hk home hhome]

/-- Two sets whose names run together at different points: a write to the one is
read in the other, which was empty. -/
theorem write_read_in_other_set :
    let dotted : SetAddress := ⟨"x.y", "z"⟩
    let plain : SetAddress := ⟨"x", "y.z"⟩
    let s : Store := .trees {}
    dotted ≠ plain ∧
      s.answer (.get ⟨plain, .int 1⟩) = .ok none ∧
      (s.afterAll (dotted.writes [(.int 1, .ofList [("n", .int64 1)])])).answer
        (.get ⟨plain, .int 1⟩) = .ok (some (.ofList [("n", .int64 1)])) := by
  refine ⟨by decide +kernel, rfl, ?_⟩
  exact congrArg Except.ok (by decide +kernel)

end KeyedRows
