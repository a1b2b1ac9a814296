/-
# What a larger sample adds

A sample up to a larger limit begins with the sample up to a smaller one
(`Fetcher.binsUpTo_mono`). The first value under a name that is not null is then
the first one in both, or it is in neither or beyond the smaller one
(`firstType_longer`), and the names that are seen first come first in both
(`freshNames_longer`). So a larger sample tells types that were not known and adds
fields at the end of a wildcard, and changes nothing else.

Key definitions: `Fetcher.resolved`, `Coarser`, `Refines`.
Key theorem: **`larger_sample_refines`**.
-/
import KeyedRows.Proofs.Schema.Resolved

namespace KeyedRows.Discovery

/-- The first column is the second, but that its type may not be known yet. -/
structure Coarser (c d : Column) : Prop where
  same : d = { c with type := d.type }
  type : c.type = d.type ∨ c.type = .unknown

/-- What a column becomes by a smaller sample and by a larger one: one column, which
has the same type in both or none in the smaller; or the fields of a wildcard, of which
the larger sample has more at the end. -/
inductive Refines (c : Column) : List Column → List Column → Prop where
  | column {s t : SqlType} : c.isWildcard = false → (s = t ∨ s = .unknown) →
      Refines c [{ c with type := s }] [{ c with type := t }]
  | wildcard {fields sameFields : List Column} (more : List Column) : c.isWildcard = true →
      List.Forall₂ Coarser fields sameFields → Refines c fields (sameFields ++ more)

/-! ### Samples -/

namespace Fetcher

variable (f : Fetcher) {n m : ℕ}

/-- What a column among columns becomes by samples up to a limit. -/
def resolved (limit : ℕ) (columns : List Column) : Column → List Column :=
  resolveColumn columns (fun c => f.binsUpTo limit (tableOf c)) []

/-- What fails within a smaller limit fails within a larger one. -/
theorem failure?_of_le (hle : n ≤ m) {table : SetAddress} (h : f.failure? m table = none) :
    f.failure? n table = none := by
  unfold failure? at h ⊢
  cases hopen : f table with
  | error e =>
    rw [hopen] at h
    cases h
  | ok events =>
    rw [hopen] at h
    refine List.findSome?_eq_none_iff.mpr fun event hevent => ?_
    exact List.findSome?_eq_none_iff.mp h event ((List.take_subset_take_left events hle) hevent)

/-- A larger sample begins with the smaller one. -/
theorem binsUpTo_mono (hle : n ≤ m) (table : SetAddress) :
    f.binsUpTo n table <+: f.binsUpTo m table := by
  unfold binsUpTo
  cases f table with
  | error e => exact List.prefix_rfl
  | ok events => exact (List.take_prefix_take_left hle).filterMap binsOf

end Fetcher

/-! ### Types and names -/

/-- A longer sample gives a name the same type, or one that the shorter does not
know. -/
theorem firstType_longer (name : String) : ∀ {samples longer : List Bins}, samples <+: longer →
    firstType samples name = firstType longer name ∨ firstType samples name = .unknown
  | [], _, _ => .inr rfl
  | r :: samples, longer, h => by
    obtain ⟨more, rfl⟩ := h
    have ih := firstType_longer name (List.prefix_append samples more)
    rw [List.cons_append, firstType_cons, firstType_cons]
    split_ifs with hnull
    · exact ih
    · exact .inl rfl

/-- The names that are seen first in a longer list begin with those of the shorter. -/
theorem freshNames_longer : ∀ {names longer : List String} (seen : List String),
    names <+: longer → freshNames seen names <+: freshNames seen longer
  | [], _, _, _ => List.nil_prefix
  | n :: ns, longer, seen, h => by
    obtain ⟨more, rfl⟩ := h
    have hrest := List.prefix_append ns more
    rw [List.cons_append, freshNames, freshNames]
    split_ifs with hseen
    · exact freshNames_longer seen hrest
    · exact (List.prefix_cons_inj n).mpr (freshNames_longer (n :: seen) hrest)

theorem flatMap_keys_longer {samples longer : List Bins} (h : samples <+: longer) :
    samples.flatMap (·.keys) <+: longer.flatMap (·.keys) := by
  obtain ⟨more, rfl⟩ := h
  rw [List.flatMap_append]
  exact List.prefix_append ..

/-! ### Columns -/

/-- The fields of a wildcard in a longer sample are those in the shorter, maybe typed,
and others behind them. -/
theorem expand_refines {samples longer : List Bins} (h : samples <+: longer) (seen : List String)
    {w : Column} (hw : w.isWildcard = true) :
    Refines w (expand samples seen w) (expand longer seen w) := by
  obtain ⟨more, hmore⟩ := freshNames_longer seen (flatMap_keys_longer h)
  rw [expand, expand, ← hmore, List.map_append]
  refine .wildcard _ hw ?_
  rw [List.forall₂_map_left_iff, List.forall₂_map_right_iff, List.forall₂_same]
  exact fun name _ => ⟨rfl, firstType_longer name h⟩

/-- **A longer sample refines what every column becomes.** -/
theorem resolveColumn_refines {columns : List Column} {samplesOf longerOf : Column → List Bins}
    (h : ∀ c, samplesOf c <+: longerOf c) (reserved : List String) (c : Column) :
    Refines c (resolveColumn columns samplesOf reserved c)
      (resolveColumn columns longerOf reserved c) := by
  cases hw : c.isWildcard with
  | true =>
    rw [resolveColumn_wildcard hw, resolveColumn_wildcard hw]
    exact expand_refines (h c) _ hw
  | false =>
    cases hneeds : c.needsSample with
    | false =>
      rw [resolveColumn_of_not_needsSample hneeds, resolveColumn_of_not_needsSample hneeds]
      exact .column hw (.inl rfl)
    | true =>
      rw [resolveColumn_undeclared hw hneeds, resolveColumn_undeclared hw hneeds]
      exact .column hw (firstType_longer c.name (h c))

/-- **A larger sample only refines.** If discovery succeeds with a limit, it succeeds
with every smaller one. A column that is no wildcard has the same type in both answers,
unless the smaller sample does not know it; and of the fields of a wildcard the smaller
sample gives the first ones, each with the type that the larger one gives it, or without
a type. -/
theorem larger_sample_refines (f : Fetcher) (columns : List Column) (n m : ℕ) (hle : n ≤ m)
    (log after : FetchLog) (answer : List Column)
    (h : discover (f.sample m) columns log = .ok answer after) :
    answer = columns.flatMap (f.resolved m columns) ∧
    (∀ log', ∃ after',
      discover (f.sample n) columns log' = .ok (columns.flatMap (f.resolved n columns)) after') ∧
    ∀ c ∈ columns, Refines c (f.resolved n columns c) (f.resolved m columns c) := by
  obtain ⟨hnone, hanswer⟩ := of_discovered h
  have hsmaller : ∀ t ∈ sampledTables columns, f.failure? n t = none := fun t ht =>
    f.failure?_of_le hle (hnone t ht)
  refine ⟨hanswer, fun log' => ⟨_, discover_of_none hsmaller log'⟩, fun c _ => ?_⟩
  exact resolveColumn_refines (fun d => f.binsUpTo_mono hle (tableOf d)) [] c

/-- The second record gives an age, which is null in the first one, and a city; the
failure behind it is beyond both limits. -/
theorem second_record_refines :
    let nameless : Record := ⟨none, .ofList [("age", .null), ("name", .null)]⟩
    let adam : Record := ⟨none, .ofList [("age", .int64 3), ("city", .text "rome")]⟩
    let f : Fetcher := fun _ => .ok [.ok nameless, .ok adam, .error (.io "lost")]
    let age : Column := { name := "age", schema := "test", table := "people" }
    let everyone : Column := { name := "*", schema := "test", table := "people" }
    let name : Column := { name := "name", schema := "test", table := "people" }
    let city : Column := { name := "city", type := .varchar, schema := "test", table := "people" }
    let columns := [age, everyone]
    1 ≤ 2 ∧
      discover (f.sample 2) columns [] =
        .ok [{ age with type := .bigInt }, name, city] [(⟨"test", "people"⟩, 2)] ∧
      (∃ after', discover (f.sample 1) columns [] =
        .ok (columns.flatMap (f.resolved 1 columns)) after') ∧
      columns.flatMap (f.resolved 1 columns) = [age, name] ∧
      ∀ c ∈ columns, Refines c (f.resolved 1 columns c) (f.resolved 2 columns c) := by
  intro nameless adam f age everyone name city columns
  have hrun : discover (f.sample 2) columns [] =
      .ok [{ age with type := .bigInt }, name, city] [(⟨"test", "people"⟩, 2)] := by cbv
  have hfirst : columns.flatMap (f.resolved 1 columns) = [age, name] := by cbv
  obtain ⟨-, hsmaller, hrefines⟩ :=
    larger_sample_refines f columns 1 2 (by decide) [] _ _ hrun
  exact ⟨by decide, hrun, hsmaller [], hfirst, hrefines⟩

end KeyedRows.Discovery
