/-
# Maps in key order

A map is the list of its entries, strictly ascending in the key. Two maps
with the same look-ups are therefore equal, and the order in which a map is
walked is the order of its keys.

Key definitions: `OrderedMap`, `find?`, `insert`, `erase`, `ofList`.
Key theorems: `find?_insert`, `find?_erase`, and `ext_find?`: a map is
determined by its look-ups.
-/

namespace KeyedRows

universe u v

/-- Entries in strictly ascending key order. -/
structure OrderedMap (κ : Type u) (ν : Type v) [Ord κ] where
  entries : List (κ × ν)
  ascending : entries.Pairwise (fun a b => compare a.1 b.1 = .lt)

namespace OrderedMap

variable {κ : Type u} {ν : Type v} [Ord κ]

instance [DecidableEq κ] [DecidableEq ν] : DecidableEq (OrderedMap κ ν) :=
  fun a b => decidable_of_iff (a.entries = b.entries) (by cases a; cases b; simp)

/-- The map without entries. -/
def empty : OrderedMap κ ν := ⟨[], .nil⟩

instance : EmptyCollection (OrderedMap κ ν) := ⟨empty⟩
instance : Inhabited (OrderedMap κ ν) := ⟨empty⟩

/-- The value under `k` in a list of entries. -/
def lookup (k : κ) : List (κ × ν) → Option ν
  | [] => none
  | (j, x) :: rest => if compare k j = .eq then some x else lookup k rest

/-- The value under `k`. -/
def find? (m : OrderedMap κ ν) (k : κ) : Option ν := lookup k m.entries

/-- The keys, ascending. -/
def keys (m : OrderedMap κ ν) : List κ := m.entries.map (·.1)

def isEmpty (m : OrderedMap κ ν) : Bool := m.entries.isEmpty

/-- Entry `(k, x)` at its place; it takes the place of an entry under `k`. -/
def insertEntry (k : κ) (x : ν) : List (κ × ν) → List (κ × ν)
  | [] => [(k, x)]
  | (j, y) :: rest =>
    match compare k j with
    | .lt => (k, x) :: (j, y) :: rest
    | .eq => (k, x) :: rest
    | .gt => (j, y) :: insertEntry k x rest

/-- The entries without the one under `k`. -/
def eraseEntry (k : κ) (l : List (κ × ν)) : List (κ × ν) :=
  l.filter (fun e => compare k e.1 != .eq)

theorem mem_insertEntry {k : κ} {x : ν} {e : κ × ν} :
    ∀ {l : List (κ × ν)}, e ∈ insertEntry k x l → e = (k, x) ∨ e ∈ l
  | [], h => by simpa [insertEntry] using h
  | (j, y) :: rest, h => by
    unfold insertEntry at h
    split at h
    · simpa using h
    · rcases List.mem_cons.1 h with h | h
      · exact .inl h
      · exact .inr (List.mem_cons_of_mem _ h)
    · rcases List.mem_cons.1 h with h | h
      · exact .inr (h ▸ List.mem_cons_self)
      · rcases mem_insertEntry h with h | h
        · exact .inl h
        · exact .inr (List.mem_cons_of_mem _ h)

variable [Std.TransOrd κ]

theorem insertEntry_ascending (k : κ) (x : ν) :
    ∀ {l : List (κ × ν)}, l.Pairwise (fun a b => compare a.1 b.1 = .lt) →
      (insertEntry k x l).Pairwise (fun a b => compare a.1 b.1 = .lt)
  | [], _ => by simp [insertEntry]
  | (j, y) :: rest, h => by
    obtain ⟨hj, hr⟩ := List.pairwise_cons.1 h
    unfold insertEntry
    split
    next hk =>
      refine List.pairwise_cons.2 ⟨fun e he => ?_, h⟩
      rcases List.mem_cons.1 he with rfl | he
      · exact hk
      · exact Std.TransCmp.lt_trans hk (hj e he)
    next hk =>
      exact List.pairwise_cons.2 ⟨fun e he => Std.TransCmp.lt_of_eq_of_lt hk (hj e he), hr⟩
    next hk =>
      refine List.pairwise_cons.2 ⟨fun e he => ?_, insertEntry_ascending k x hr⟩
      rcases mem_insertEntry he with rfl | he
      · exact Std.OrientedCmp.lt_of_gt hk
      · exact hj e he

/-- `x` under `k`, in place of what was there. -/
def insert (m : OrderedMap κ ν) (k : κ) (x : ν) : OrderedMap κ ν :=
  ⟨insertEntry k x m.entries, insertEntry_ascending k x m.ascending⟩

/-- Nothing under `k`. -/
def erase (m : OrderedMap κ ν) (k : κ) : OrderedMap κ ν :=
  ⟨eraseEntry k m.entries, m.ascending.filter _⟩

/-- The map of a list of entries; of two with one key the later counts. -/
def ofList (l : List (κ × ν)) : OrderedMap κ ν :=
  l.foldl (fun m e => m.insert e.1 e.2) empty

/-! ### Look-ups -/

theorem lookup_insertEntry (k j : κ) (x : ν) :
    ∀ l : List (κ × ν),
      lookup k (insertEntry j x l) = if compare k j = .eq then some x else lookup k l
  | [] => by simp [insertEntry, lookup]
  | (i, y) :: rest => by
    unfold insertEntry
    split
    next => simp [lookup]
    next hji =>
      have : compare k i = compare k j := (Std.TransCmp.congr_right hji).symm
      by_cases h : compare k j = .eq <;> simp [lookup, this, h]
    next hji =>
      by_cases hki : compare k i = .eq
      · have : compare k j ≠ .eq := fun h => by
          have := Std.TransCmp.eq_trans (Std.OrientedCmp.eq_symm h) hki
          simp [this] at hji
        simp [lookup, hki, this]
      · simp [lookup, hki, lookup_insertEntry k j x rest]

/-- **Inserting changes the look-up of its key and of no other.** -/
theorem find?_insert (m : OrderedMap κ ν) (j k : κ) (x : ν) :
    (m.insert j x).find? k = if compare k j = .eq then some x else m.find? k :=
  lookup_insertEntry k j x m.entries

theorem lookup_eraseEntry (k j : κ) :
    ∀ l : List (κ × ν),
      lookup k (eraseEntry j l) = if compare k j = .eq then none else lookup k l
  | [] => by simp [eraseEntry, lookup]
  | (i, y) :: rest => by
    have ih := lookup_eraseEntry k j rest
    unfold eraseEntry at ih ⊢
    by_cases hji : compare j i = .eq
    · have : compare k i = compare k j := (Std.TransCmp.congr_right hji).symm
      by_cases h : compare k j = .eq <;> simp_all [lookup]
    · by_cases hki : compare k i = .eq
      · have hkj : compare k j ≠ .eq := fun h =>
          hji (Std.TransCmp.eq_trans (Std.OrientedCmp.eq_symm h) hki)
        simp [lookup, hji, hki, hkj]
      · simp [lookup, hji, hki, ih]

/-- **Erasing empties the look-up of its key and of no other.** -/
theorem find?_erase (m : OrderedMap κ ν) (j k : κ) :
    (m.erase j).find? k = if compare k j = .eq then none else m.find? k :=
  lookup_eraseEntry k j m.entries

omit [Std.TransOrd κ] in
@[simp] theorem find?_empty (k : κ) : (empty : OrderedMap κ ν).find? k = none := rfl

omit [Std.TransOrd κ] in
theorem lookup_eq_none_of_lt {k : κ} :
    ∀ {l : List (κ × ν)}, (∀ e ∈ l, compare k e.1 = .lt) → lookup k l = none
  | [], _ => rfl
  | (j, y) :: rest, h => by
    have hj := h _ List.mem_cons_self
    simp only at hj
    simp [lookup, hj, lookup_eq_none_of_lt fun e he => h e (List.mem_cons_of_mem _ he)]

theorem entries_eq_of_lookup [Std.LawfulEqOrd κ] :
    ∀ {l r : List (κ × ν)}, l.Pairwise (fun a b => compare a.1 b.1 = .lt) →
      r.Pairwise (fun a b => compare a.1 b.1 = .lt) → (∀ k, lookup k l = lookup k r) → l = r
  | [], [], _, _, _ => rfl
  | [], (j, y) :: _, _, _, h => by simpa [lookup] using h j
  | (j, y) :: _, [], _, _, h => by simpa [lookup] using h j
  | (i, x) :: l, (j, y) :: r, hl, hr, h => by
    obtain ⟨hi, hl'⟩ := List.pairwise_cons.1 hl
    obtain ⟨hj, hr'⟩ := List.pairwise_cons.1 hr
    have below : ∀ {k k' : κ} {z : ν} {t : List (κ × ν)}, compare k k' = .lt →
        (∀ e ∈ t, compare k' e.1 = .lt) → lookup k ((k', z) :: t) = none := fun hk ht =>
      lookup_eq_none_of_lt fun e he => by
        rcases List.mem_cons.1 he with rfl | he
        · exact hk
        · exact Std.TransCmp.lt_trans hk (ht e he)
    have same : i = j := by
      rcases hij : compare i j with _ | _ | _
      · have := h i
        rw [below hij hj] at this
        simp [lookup] at this
      · exact Std.LawfulEqOrd.eq_of_compare hij
      · have := h j
        rw [below (Std.OrientedCmp.lt_of_gt hij) hi] at this
        simp [lookup] at this
    subst same
    have hxy : x = y := by simpa [lookup] using h i
    subst hxy
    have : l = r := entries_eq_of_lookup hl' hr' fun k => by
      by_cases hk : compare k i = .eq
      · have hk := Std.LawfulEqOrd.eq_of_compare hk
        subst hk
        rw [lookup_eq_none_of_lt hi, lookup_eq_none_of_lt hj]
      · simpa [lookup, hk] using h k
    rw [this]

/-- **A map is determined by its look-ups.** -/
theorem ext_find? [Std.LawfulEqOrd κ] {m n : OrderedMap κ ν}
    (h : ∀ k, m.find? k = n.find? k) : m = n := by
  cases m
  cases n
  congr
  exact entries_eq_of_lookup ‹_› ‹_› h

end OrderedMap
end KeyedRows
