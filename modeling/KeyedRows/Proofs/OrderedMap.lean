/-
# Entries and look-ups

The entries of a map are what its look-ups find (`mem_entries_iff`), so the
order of the entries is the only thing that a list of entries adds to them.
An entry that is put in leaves the other keys as they are (`filter_keys_insert`).
The map of a list of entries holds under each key the entry that stands last
(`find?_ofList`), and leaving one place of the list out leaves the last of the
other places (`lastUnder_eraseIdx`).

Key definition: `OrderedMap.lastUnder`.
-/
import Mathlib
import KeyedRows.OrderedMap

namespace KeyedRows
namespace OrderedMap

universe u v

variable {κ : Type u} {ν : Type v} [Ord κ]

/-- The value of the last entry under a key in a list of entries. -/
def lastUnder (k : κ) : List (κ × ν) → Option ν
  | [] => none
  | (j, x) :: rest => (lastUnder k rest).or (if compare k j = .eq then some x else none)

theorem find?_foldl_insert [Std.TransOrd κ] (k : κ) : ∀ (l : List (κ × ν)) (m : OrderedMap κ ν),
    (l.foldl (fun m e => m.insert e.1 e.2) m).find? k = (lastUnder k l).or (m.find? k)
  | [], m => by simp [lastUnder]
  | (j, x) :: rest, m => by
    rw [List.foldl_cons, find?_foldl_insert k rest, find?_insert, lastUnder, Option.or_assoc]
    by_cases h : compare k j = .eq <;> simp [h]

/-- **The map of a list holds the last entry under each key.** -/
theorem find?_ofList [Std.TransOrd κ] (l : List (κ × ν)) (k : κ) : (ofList l).find? k = lastUnder k l := by
  rw [ofList, find?_foldl_insert, find?_empty, Option.or_none]

variable [Std.LawfulEqOrd κ]

theorem mem_iff_lookup {k : κ} {x : ν} : ∀ {l : List (κ × ν)},
    l.Pairwise (fun a b => compare a.1 b.1 = .lt) → ((k, x) ∈ l ↔ lookup k l = some x)
  | [], _ => by simp [lookup]
  | (j, y) :: rest, h => by
    obtain ⟨hj, hr⟩ := List.pairwise_cons.mp h
    by_cases hk : compare k j = .eq
    · have hkj := Std.LawfulEqOrd.eq_of_compare hk
      subst hkj
      have hout : (k, x) ∉ rest := fun hm => by
        have := hj _ hm
        simp at this
      simp [lookup, hout, eq_comm]
    · have hne : k ≠ j := fun he => hk (by rw [he]; exact Std.ReflCmp.compare_self)
      rw [lookup, if_neg hk, ← mem_iff_lookup hr, List.mem_cons]
      simp [hne]

/-- **An entry of a map is what the look-up of its key finds.** -/
theorem mem_entries_iff {m : OrderedMap κ ν} {k : κ} {x : ν} :
    (k, x) ∈ m.entries ↔ m.find? k = some x :=
  mem_iff_lookup m.ascending

/-- Ascending entries are determined by which entries they are. -/
theorem entries_eq_of_mem [Std.TransOrd κ] {l r : List (κ × ν)}
    (hl : l.Pairwise (fun a b => compare a.1 b.1 = .lt))
    (hr : r.Pairwise (fun a b => compare a.1 b.1 = .lt)) (h : ∀ k x, (k, x) ∈ l ↔ (k, x) ∈ r) :
    l = r :=
  entries_eq_of_lookup hl hr fun k => Option.ext fun x => by
    rw [← mem_iff_lookup hl, h, mem_iff_lookup hr]

theorem filter_keys_insertEntry {p : κ → Bool} {k : κ} (hk : p k = false) (x : ν) :
    ∀ l : List (κ × ν), ((insertEntry k x l).map (·.1)).filter p = (l.map (·.1)).filter p
  | [] => by simp [insertEntry, hk]
  | (j, y) :: rest => by
    unfold insertEntry
    split
    next => simp [hk]
    next hkj =>
      obtain rfl := Std.LawfulEqOrd.eq_of_compare hkj
      simp [hk]
    next =>
      rw [List.map_cons, List.map_cons, List.filter_cons, List.filter_cons,
        filter_keys_insertEntry hk x rest]

/-- Inserting changes no other key. -/
theorem filter_keys_insert [Std.TransOrd κ] {p : κ → Bool} {k : κ} (hk : p k = false) (x : ν)
    (m : OrderedMap κ ν) : (m.insert k x).keys.filter p = m.keys.filter p :=
  filter_keys_insertEntry hk x m.entries

theorem lastUnder_eq_none_iff {k : κ} : ∀ {l : List (κ × ν)},
    lastUnder k l = none ↔ ∀ e ∈ l, e.1 ≠ k
  | [] => by simp [lastUnder]
  | (j, x) :: rest => by
    by_cases h : k = j
    · subst h
      simp [lastUnder]
    · have hc : compare k j ≠ .eq := fun hc => h (Std.LawfulEqOrd.eq_of_compare hc)
      simp [lastUnder, hc, lastUnder_eq_none_iff (l := rest), Ne.symm h]

theorem lastUnder_cons_eq_some_iff {k : κ} {x : ν} {e : κ × ν} {rest : List (κ × ν)} :
    lastUnder k (e :: rest) = some x ↔
      lastUnder k rest = some x ∨ (∀ e' ∈ rest, e'.1 ≠ k) ∧ e = (k, x) := by
  obtain ⟨j, y⟩ := e
  rw [lastUnder, Option.or_eq_some_iff, lastUnder_eq_none_iff]
  by_cases h : k = j
  · subst h
    simp
  · have hc : compare k j ≠ .eq := fun hc => h (Std.LawfulEqOrd.eq_of_compare hc)
    simp [hc, Ne.symm h]

/-- With one place left out, the last entry under a key stands at the place
after which no other place than that has the key. -/
theorem lastUnder_eraseIdx {k : κ} {x : ν} : ∀ (l : List (κ × ν)) (i : ℕ),
    lastUnder k (l.eraseIdx i) = some x ↔
      ∃ j, j ≠ i ∧ l[j]? = some (k, x) ∧ ∀ j' > j, j' ≠ i → ∀ e, l[j']? = some e → e.1 ≠ k
  | [], i => by simp [lastUnder]
  | e :: rest, 0 => by
    have hlast := lastUnder_eraseIdx (k := k) (x := x) rest rest.length
    rw [List.eraseIdx_of_length_le (le_refl _)] at hlast
    rw [List.eraseIdx_zero, List.tail_cons, hlast]
    constructor
    · rintro ⟨j, -, hj, hafter⟩
      refine ⟨j + 1, by omega, by simpa using hj, fun j' hj' _ e' he' => ?_⟩
      obtain ⟨j', rfl⟩ : ∃ n, j' = n + 1 := ⟨j' - 1, by omega⟩
      have hin : rest[j']? = some e' := by simpa using he'
      exact hafter j' (by omega) (by have := (List.getElem?_eq_some_iff.mp hin).1; omega) e' hin
    · rintro ⟨j, hj0, hj, hafter⟩
      obtain ⟨j, rfl⟩ : ∃ n, j = n + 1 := ⟨j - 1, by omega⟩
      have hin : rest[j]? = some (k, x) := by simpa using hj
      refine ⟨j, by have := (List.getElem?_eq_some_iff.mp hin).1; omega, hin,
        fun j' hj' _ e' he' => ?_⟩
      exact hafter (j' + 1) (by omega) (by omega) e' (by simpa using he')
  | e :: rest, i + 1 => by
    rw [List.eraseIdx_cons_succ, lastUnder_cons_eq_some_iff, lastUnder_eraseIdx rest i]
    constructor
    · rintro (⟨j, hji, hj, hafter⟩ | ⟨hout, rfl⟩)
      · refine ⟨j + 1, by omega, by simpa using hj, fun j' hj' hne e' he' => ?_⟩
        obtain ⟨j', rfl⟩ : ∃ n, j' = n + 1 := ⟨j' - 1, by omega⟩
        exact hafter j' (by omega) (by omega) e' (by simpa using he')
      · refine ⟨0, by omega, rfl, fun j' hj' hne e' he' => ?_⟩
        obtain ⟨j', rfl⟩ : ∃ n, j' = n + 1 := ⟨j' - 1, by omega⟩
        exact hout e' (List.mem_eraseIdx_iff_getElem?.mpr ⟨j', by omega, by simpa using he'⟩)
    · rintro ⟨j, hji, hj, hafter⟩
      cases j with
      | zero =>
        refine .inr ⟨fun e' he' => ?_, by simpa using hj⟩
        obtain ⟨j', hne, he'⟩ := List.mem_eraseIdx_iff_getElem?.mp he'
        exact hafter (j' + 1) (by omega) (by omega) e' (by simpa using he')
      | succ j =>
        refine .inl ⟨j, by omega, by simpa using hj, fun j' hj' hne e' he' => ?_⟩
        exact hafter (j' + 1) (by omega) (by omega) e' (by simpa using he')

end OrderedMap
end KeyedRows
