/-
# Discovery of what was discovered

Columns that discovery answers with are not changed when they are discovered again
from the same records. One that is no wildcard has the type that its table gives it, or
was declared (`resolveColumn_of_typed`). A wildcard among them is a field that is itself
named as one: it expands again, but all other fields of its table now stand beside it,
so it becomes nothing but itself (`resolveColumn_of_field`).

Key theorems: `resolve_resolve`, **`discovered_again`**.
-/
import KeyedRows.Proofs.Schema.Resolved

namespace KeyedRows.Discovery

/-- The only name that is not seen. -/
theorem freshNames_eq_singleton {names seen : List String} {name : String} (hmem : name ∈ names)
    (hout : name ∉ seen) (hrest : ∀ n ∈ names, n ≠ name → n ∈ seen) :
    freshNames seen names = [name] := by
  have hnodup : (freshNames seen names).Nodup := by
    rw [freshNames_eq]
    exact (nodup_eraseDups names).filter _
  have honly : ∀ n, n ∈ freshNames seen names ↔ n ∈ [name] := fun n => by
    rw [mem_freshNames, List.mem_singleton]
    constructor
    · rintro ⟨hn, hfresh⟩
      by_contra hne
      exact hfresh (hrest n hn hne)
    · rintro rfl
      exact ⟨hmem, hout⟩
  exact List.perm_singleton.mp
    ((List.perm_ext_iff_of_nodup hnodup (List.nodup_singleton name)).mpr honly)

variable {columns : List Column} {samplesOf : Column → List Bins} {reserved : List String}
  {c d : Column}

/-- What a column becomes is of its table, and needs a sample only if the column
does. -/
theorem tableOf_of_mem_resolveColumn (h : d ∈ resolveColumn columns samplesOf reserved c) :
    tableOf d = tableOf c ∧ (d.needsSample = true → c.needsSample = true) := by
  cases comesOutOf_of_mem h with
  | declared => exact ⟨rfl, id⟩
  | undeclared _ hneeds => exact ⟨rfl, fun _ => hneeds⟩
  | field hw => exact ⟨rfl, fun _ => by simp [Column.needsSample, hw]⟩

/-- Columns that were resolved need samples of no other tables. -/
theorem sampledTables_resolve {table : SetAddress}
    (h : table ∈ sampledTables (resolve columns samplesOf reserved)) :
    table ∈ sampledTables columns := by
  obtain ⟨d, hd, rfl⟩ := List.mem_map.mp (List.mem_eraseDups.mp h)
  obtain ⟨hd, hneeds⟩ := List.mem_filter.mp hd
  obtain ⟨c, hc, hd⟩ := List.mem_flatMap.mp hd
  obtain ⟨htable, hneeded⟩ := tableOf_of_mem_resolveColumn hd
  rw [htable]
  exact mem_sampledTables hc (hneeded hneeds)

/-- A column that has the type of its table, or was declared, is left as it is. -/
theorem resolveColumn_of_typed (hw : c.isWildcard = false)
    (htyped : c.needsSample = true → c.type = firstType (samplesOf c) c.name) :
    resolveColumn columns samplesOf reserved c = [c] := by
  cases hneeds : c.needsSample with
  | false => exact resolveColumn_of_not_needsSample hneeds columns
  | true => rw [resolveColumn_undeclared hw hneeds, ← htyped hneeds]

/-! ### Resolved columns -/

/-- A wildcard that was resolved is a field that a wildcard found. -/
theorem wildcard_of_mem_resolve (h : d ∈ resolve columns samplesOf reserved)
    (hd : d.isWildcard = true) : ∃ w ∈ columns, w.isWildcard = true ∧ tableOf w = tableOf d ∧
      d.name ∈ (samplesOf w).flatMap (·.keys) ∧
      d = { name := d.name, type := d.type, schema := d.schema, table := d.table } := by
  obtain ⟨w, hmem, h⟩ := List.mem_flatMap.mp h
  cases comesOutOf_of_mem h with
  | declared hneeds => simp [Column.needsSample, hd] at hneeds
  | undeclared hw => cases hd.symm.trans hw
  | field hw hname => exact ⟨w, hmem, hw, rfl, hname, rfl⟩

/-- All fields that a wildcard finds in its table stand beside it once they are resolved,
but for the one that is named as a wildcard. -/
theorem mem_namesBeside_resolve {w : Column} (hw : w ∈ columns) (hwild : w.isWildcard = true)
    {name : String} (hname : name ∈ (samplesOf w).flatMap (·.keys))
    (hne : name ≠ Column.wildcardName) : name ∈ namesBeside (resolve columns samplesOf []) w := by
  rw [mem_namesBeside]
  by_cases hbeside : name ∈ namesBeside columns w
  · obtain ⟨c, hc, hcw, htable, rfl⟩ := mem_namesBeside.mp hbeside
    obtain ⟨type, hkept⟩ := resolve_keeps hc hcw
    exact ⟨_, hkept, hcw, htable, rfl⟩
  · have hfresh : name ∈ freshNames (namesBeside columns w ++ [])
        ((samplesOf w).flatMap (·.keys)) := by
      rw [List.append_nil]
      exact mem_freshNames.mpr ⟨hname, hbeside⟩
    let field : Column :=
      { name, type := firstType (samplesOf w) name, schema := w.schema, table := w.table }
    have hfield : field ∈ resolve columns samplesOf [] := by
      refine List.mem_flatMap.mpr ⟨w, hw, ?_⟩
      rw [resolveColumn_wildcard hwild]
      exact List.mem_map_of_mem hfresh
    exact ⟨field, hfield, beq_false_of_ne hne, rfl, rfl⟩

section

variable (htables : ∀ c d, tableOf c = tableOf d → samplesOf c = samplesOf d)

include htables

/-- A column that was resolved has the type that its table gives it. -/
theorem type_of_mem_resolve (h : d ∈ resolve columns samplesOf reserved)
    (hneeds : d.needsSample = true) : d.type = firstType (samplesOf d) d.name := by
  obtain ⟨c, -, hd⟩ := List.mem_flatMap.mp h
  rw [htables d c (tableOf_of_mem_resolveColumn hd).1]
  cases comesOutOf_of_mem hd with
  | declared hdeclared => cases hdeclared.symm.trans hneeds
  | undeclared => rfl
  | field => rfl

/-- A field that is named as a wildcard expands to itself alone. -/
theorem resolveColumn_of_field (h : d ∈ resolve columns samplesOf []) (hd : d.isWildcard = true) :
    resolveColumn (resolve columns samplesOf []) samplesOf [] d = [d] := by
  obtain ⟨w, hmem, hw, htable, hname, hplain⟩ := wildcard_of_mem_resolve h hd
  have hstar : d.name = Column.wildcardName := beq_iff_eq.mp hd
  have htype : d.type = firstType (samplesOf d) d.name :=
    type_of_mem_resolve htables h (by simp [Column.needsSample, hd])
  have hbeside : ∀ n, n ∈ namesBeside (resolve columns samplesOf []) w ↔
      n ∈ namesBeside (resolve columns samplesOf []) d := fun n => by
    rw [mem_namesBeside, mem_namesBeside, htable]
  have hout : d.name ∉ namesBeside (resolve columns samplesOf []) d := by
    rw [mem_namesBeside]
    rintro ⟨c, -, hcw, -, hsame⟩
    rw [Column.isWildcard, hsame, ← Column.isWildcard, hd] at hcw
    cases hcw
  have honly : freshNames (namesBeside (resolve columns samplesOf []) d ++ [])
      ((samplesOf d).flatMap (·.keys)) = [d.name] := by
    rw [List.append_nil, ← htables w d htable]
    exact freshNames_eq_singleton hname hout fun n hn hne =>
      (hbeside n).mp (mem_namesBeside_resolve hmem hw hn (hstar ▸ hne))
  rw [resolveColumn_wildcard hd, expand, honly, List.map_singleton, ← htype, ← hplain]

/-- **Resolved columns are resolved to themselves.** -/
theorem resolve_resolve :
    resolve (resolve columns samplesOf []) samplesOf [] = resolve columns samplesOf [] := by
  have halone : ∀ d ∈ resolve columns samplesOf [],
      resolveColumn (resolve columns samplesOf []) samplesOf [] d = [d] := fun d hd => by
    cases hw : d.isWildcard with
    | false => exact resolveColumn_of_typed hw (type_of_mem_resolve htables hd)
    | true => exact resolveColumn_of_field htables hd hw
  conv_lhs => rw [resolve]
  rw [List.flatMap_congr halone, List.flatMap_singleton']

end

/-- **What was discovered is discovered again.** If discovery succeeds, discovery of the
columns that it answers with, from the same records, succeeds and answers with the same
columns. -/
theorem discovered_again (f : Fetcher) (limit : ℕ) (columns answer : List Column)
    (log after : FetchLog) (h : discover (f.sample limit) columns log = .ok answer after)
    (log' : FetchLog) :
    ∃ after', discover (f.sample limit) answer log' = .ok answer after' := by
  obtain ⟨hnone, rfl⟩ := of_discovered h
  let samplesOf : Column → List Bins := fun c => f.binsUpTo limit (tableOf c)
  have hstill : ∀ t ∈ sampledTables (resolve columns samplesOf []), f.failure? limit t = none :=
    fun t ht => hnone t (sampledTables_resolve ht)
  have hagain := discover_of_none hstill log'
  rw [resolve_resolve fun _ _ htable => congrArg (f.binsUpTo limit) htable] at hagain
  exact ⟨_, hagain⟩

/-- Two wildcards of one table, in which a field is named as a wildcard, and a column
that no record has. -/
theorem field_named_as_wildcard_stays :
    let adam : Record := ⟨none, .ofList [("*", .int64 1), ("name", .text "Adam")]⟩
    let f : Fetcher := fun _ => .ok [.ok adam]
    let born : Column := { name := "born", schema := "test", table := "people" }
    let everyone : Column := { name := "*", label := some "all", schema := "test", table := "people" }
    let star : Column := { name := "*", type := .bigInt, schema := "test", table := "people" }
    let name : Column := { name := "name", type := .varchar, schema := "test", table := "people" }
    let answer := [born, star, name, star, name]
    discover (f.sample 5) [born, everyone, everyone] [] =
        .ok answer [(⟨"test", "people"⟩, 1)] ∧
      ∃ after', discover (f.sample 5) answer [] = .ok answer after' := by
  intro adam f born everyone star name answer
  have hrun : discover (f.sample 5) [born, everyone, everyone] [] =
      .ok answer [(⟨"test", "people"⟩, 1)] := by cbv
  exact ⟨hrun, discovered_again f 5 _ answer [] _ hrun []⟩

end KeyedRows.Discovery
