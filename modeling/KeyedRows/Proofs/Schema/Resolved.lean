/-
# What discovery makes of columns

Discovery answers column by column. A declared column stays as it is, an undeclared
one takes the type of the first value under its name that is not null, and a wildcard
becomes a column for every name in the sample but those that stand beside it
(`announced_resolveColumn`). A name that stands beside a wildcard never comes out of it,
so columns that can be told apart by table and name stay so (`Announced.nodup_flatMap`).

Key definitions: `FirstTyped`, `Announced`.
Key theorem: **`discovered_columns`**.
-/
import KeyedRows.Proofs.Schema.Fetched
import KeyedRows.Proofs.Schema.Visible

namespace KeyedRows.Discovery

/-- The type that records give to a name: that of the first value under it that is
not null, or unknown if there is none. -/
inductive FirstTyped (records : List Record) (name : String) : SqlType → Prop where
  | found {before rest : List Record} {r : Record} :
      records = before ++ r :: rest → (∀ s ∈ before, (s.bins.read name).isNull = true) →
        (r.bins.read name).isNull = false → FirstTyped records name (.ofValue (r.bins.read name))
  | absent : (∀ r ∈ records, (r.bins.read name).isNull = true) → FirstTyped records name .unknown

/-- What a column among columns becomes, by the records of the tables. A wildcard
becomes unlabelled columns with the names in the records of its table, each at the place
where it is seen first, but for the names of other columns of that table. -/
inductive Announced (columns : List Column) (recordsOf : SetAddress → List Record)
    (c : Column) : List Column → Prop where
  | declared : c.isWildcard = false → c.hasDeclaredType = true → Announced columns recordsOf c [c]
  | undeclared {t : SqlType} : c.isWildcard = false → c.hasDeclaredType = false →
      FirstTyped (recordsOf (tableOf c)) c.name t →
        Announced columns recordsOf c [{ c with type := t }]
  | wildcard {fields : List Column} : c.isWildcard = true →
      fields.map (·.name) = ((recordsOf (tableOf c)).flatMap (·.bins.keys)).eraseDups.filter
        (fun name => ∀ d ∈ columns, d.isWildcard = false → tableOf d = tableOf c → d.name ≠ name) →
      (∀ field ∈ fields, ∃ name t, FirstTyped (recordsOf (tableOf c)) name t ∧
        field = { name, type := t, schema := c.schema, table := c.table }) →
        Announced columns recordsOf c fields

/-! ### Types -/

theorem firstType_cons (r : Bins) (samples : List Bins) (name : String) :
    firstType (r :: samples) name =
      if (r.read name).isNull then firstType samples name else .ofValue (r.read name) := by
  unfold firstType Bins.read
  cases hfound : r.find? name with
  | none => simp [hfound, Value.isNull]
  | some v => cases hnull : v.isNull <;> simp [hfound, hnull]

/-- A record without a value under the name changes nothing. -/
theorem FirstTyped.cons {r : Record} {records : List Record} {name : String} {t : SqlType}
    (hr : (r.bins.read name).isNull = true) (h : FirstTyped records name t) :
    FirstTyped (r :: records) name t := by
  cases h with
  | @found before rest s hrecords hbefore hs =>
    rw [hrecords]
    exact .found (List.cons_append ..).symm (List.forall_mem_cons.mpr ⟨hr, hbefore⟩) hs
  | absent hnull => exact .absent (List.forall_mem_cons.mpr ⟨hr, hnull⟩)

theorem firstTyped_firstType (name : String) : ∀ records : List Record,
    FirstTyped records name (firstType (records.map (·.bins)) name)
  | [] => .absent nofun
  | r :: records => by
    rw [List.map_cons, firstType_cons]
    split_ifs with hnull
    · exact (firstTyped_firstType name records).cons hnull
    · exact .found (List.nil_append _).symm nofun (Bool.not_eq_true _ ▸ hnull)

/-! ### Names -/

theorem freshNames_nil : ∀ names : List String, freshNames [] names = names.eraseDups
  | [] => rfl
  | n :: ns => by
    have hseen : ∀ m, m ∈ [n] ↔ m ∈ [] ∨ m ∈ [n] := by simp
    rw [List.eraseDups_cons, eraseDups_filter, ← freshNames_nil ns, freshNames,
      if_neg (by simp), freshNames_or hseen]
    simp only [List.contains_cons, List.contains_nil, Bool.or_false]

/-- The names that are not seen, each at its first place. -/
theorem freshNames_eq (seen names : List String) :
    freshNames seen names = names.eraseDups.filter fun n => !seen.contains n := by
  rw [← freshNames_nil]
  exact freshNames_or (by simp)

/-! ### Columns -/

variable {columns : List Column} {recordsOf : SetAddress → List Record}

/-- **Every column becomes what is announced of it.** -/
theorem announced_resolveColumn {samplesOf : Column → List Bins}
    (hsamples : ∀ c, samplesOf c = (recordsOf (tableOf c)).map (·.bins)) (c : Column) :
    Announced columns recordsOf c (resolveColumn columns samplesOf [] c) := by
  cases hw : c.isWildcard with
  | true =>
    rw [resolveColumn_wildcard hw, expand, freshNames_eq, List.append_nil, hsamples,
      List.flatMap_map]
    refine .wildcard hw ?_ fun field hfield => ?_
    · rw [List.map_map]
      refine (List.map_id' _).trans (List.filter_congr fun name _ => Bool.eq_iff_iff.mpr ?_)
      simp [mem_namesBeside]
    · obtain ⟨name, -, rfl⟩ := List.mem_map.mp hfield
      exact ⟨name, _, firstTyped_firstType name _, rfl⟩
  | false =>
    have hneeds : c.needsSample = !c.hasDeclaredType := by simp [Column.needsSample, hw]
    cases hdeclared : c.hasDeclaredType with
    | true =>
      rw [resolveColumn_of_not_needsSample (by rw [hneeds, hdeclared]; rfl)]
      exact .declared hw hdeclared
    | false =>
      rw [resolveColumn_undeclared hw (by rw [hneeds, hdeclared]; rfl), hsamples]
      exact .undeclared hw hdeclared (firstTyped_firstType c.name _)

/-! ### Telling columns apart -/

/-- Where a column is found: its table and its name. -/
def located (c : Column) : SetAddress × String := (tableOf c, c.name)

namespace Announced

variable {c d : Column} {fields : List Column}

theorem map_located_of_not_wildcard (h : Announced columns recordsOf c fields)
    (hc : c.isWildcard = false) : fields.map located = [located c] := by
  cases h with
  | declared => rfl
  | undeclared => rfl
  | wildcard hw => rw [hw] at hc; cases hc

/-- A wildcard becomes columns of its table with different names, none of them the
name of another column of that table. -/
theorem map_located_of_wildcard (h : Announced columns recordsOf c fields)
    (hc : c.isWildcard = true) : ∃ names : List String, names.Nodup ∧
      (∀ name ∈ names, ∀ d ∈ columns, d.isWildcard = false → located d ≠ (tableOf c, name)) ∧
      fields.map located = names.map (tableOf c, ·) := by
  cases h with
  | declared hw => rw [hw] at hc; cases hc
  | undeclared hw => rw [hw] at hc; cases hc
  | wildcard _ hnames hfields =>
    refine ⟨fields.map (·.name), ?_, fun name hname d hd hw hlocated => ?_, ?_⟩
    · rw [hnames]
      exact (nodup_eraseDups _).filter _
    · rw [hnames, List.mem_filter, decide_eq_true_eq] at hname
      obtain ⟨htable, hsame⟩ := Prod.mk.inj hlocated
      exact hname.2 d hd hw htable hsame
    · rw [List.map_map]
      refine List.map_congr_left fun field hfield => ?_
      obtain ⟨name, t, -, rfl⟩ := hfields field hfield
      rfl

theorem nodup_located (h : Announced columns recordsOf c fields) :
    (fields.map located).Nodup := by
  cases hc : c.isWildcard with
  | false =>
    rw [h.map_located_of_not_wildcard hc]
    exact List.nodup_singleton _
  | true =>
    obtain ⟨names, hnodup, -, hfields⟩ := h.map_located_of_wildcard hc
    rw [hfields]
    exact hnodup.map (Prod.mk_right_injective _)

/-- A wildcard becomes nothing that another column becomes, unless that is a wildcard
of the same table. -/
theorem disjoint_of_wildcard {others : List Column} (h : Announced columns recordsOf c fields)
    (hc : c.isWildcard = true) (hother : Announced columns recordsOf d others) (hd : d ∈ columns)
    (hapart : d.isWildcard = true → tableOf c ≠ tableOf d) :
    List.Disjoint (fields.map located) (others.map located) := by
  obtain ⟨names, -, hbeside, hfields⟩ := h.map_located_of_wildcard hc
  rw [hfields]
  rintro _ hin hout
  obtain ⟨name, hname, rfl⟩ := List.mem_map.mp hin
  cases hwild : d.isWildcard with
  | false =>
    rw [hother.map_located_of_not_wildcard hwild, List.mem_singleton] at hout
    exact hbeside name hname d hd hwild hout.symm
  | true =>
    obtain ⟨names', -, -, hothers⟩ := hother.map_located_of_wildcard hwild
    rw [hothers] at hout
    obtain ⟨name', -, hsame⟩ := List.mem_map.mp hout
    exact hapart hwild (Prod.mk.inj hsame).1.symm

end Announced

/-- **Columns that can be told apart stay so**: no two explicit ones have one name in
one table, and no two wildcards one table. -/
theorem nodup_flatMap_announced {part : Column → List Column}
    (hpart : ∀ c ∈ columns, Announced columns recordsOf c (part c))
    (hnames : ((columns.filter fun c => !c.isWildcard).map located).Nodup)
    (htables : ((columns.filter Column.isWildcard).map tableOf).Nodup) :
    ((columns.flatMap part).map located).Nodup := by
  rw [List.Nodup, List.pairwise_map, List.pairwise_filter] at hnames htables
  rw [List.map_flatMap, List.nodup_flatMap]
  refine ⟨fun c hc => (hpart c hc).nodup_located, ?_⟩
  refine (hnames.and htables).imp_of_mem fun {c d} hc hd happart => ?_
  obtain ⟨hname, htable⟩ := happart
  cases hwc : c.isWildcard with
  | true => exact (hpart c hc).disjoint_of_wildcard hwc (hpart d hd) hd (htable hwc)
  | false =>
    cases hwd : d.isWildcard with
    | true =>
      refine ((hpart d hd).disjoint_of_wildcard hwd (hpart c hc) hc fun hw => ?_).symm
      rw [hwc] at hw
      cases hw
    | false =>
      have hne : located c ≠ located d := hname (by simp [hwc]) (by simp [hwd])
      rw [Function.onFun, (hpart c hc).map_located_of_not_wildcard hwc,
        (hpart d hd).map_located_of_not_wildcard hwd]
      simpa using hne.symm

/-! ### Discovery -/

/-- **What discovery makes of columns.** If every table can be opened and no record of it
up to the limit fails, discovery answers, one after the other, with what is announced of
each column by these records. If moreover no two explicit columns have one name in one
table, and no table has two wildcards, then no two columns of the answer have one name in
one table. -/
theorem discovered_columns (f : Fetcher) (limit : ℕ) (recordsOf : SetAddress → List Record)
    (hrecords : ∀ t, ∃ events, f t = .ok events ∧ events.take limit = (recordsOf t).map .ok)
    (columns : List Column) (log : FetchLog) :
    ∃ part after, discover (f.sample limit) columns log = .ok (columns.flatMap part) after ∧
      (∀ c ∈ columns, Announced columns recordsOf c (part c)) ∧
      (((columns.filter fun c => !c.isWildcard).map located).Nodup →
        ((columns.filter Column.isWildcard).map tableOf).Nodup →
          ((columns.flatMap part).map located).Nodup) := by
  have hnone : ∀ t, f.failure? limit t = none := fun t => by
    obtain ⟨events, hopen, htake⟩ := hrecords t
    simp only [Fetcher.failure?, hopen, htake, findSome?_records]
  have hbins : ∀ t, f.binsUpTo limit t = (recordsOf t).map (·.bins) := fun t => by
    obtain ⟨events, hopen, htake⟩ := hrecords t
    simp only [Fetcher.binsUpTo, hopen, htake, filterMap_records]
  have hpart : ∀ c ∈ columns, Announced columns recordsOf c
      (resolveColumn columns (fun c => f.binsUpTo limit (tableOf c)) [] c) := fun c _ =>
    announced_resolveColumn (fun c => hbins (tableOf c)) c
  exact ⟨_, _, discover_of_none (fun t _ => hnone t) log, hpart, nodup_flatMap_announced hpart⟩

/-- The age is null first and a number later, and the wildcard beside it stands for the
rest. The record that fails is beyond the limit. -/
theorem late_value_announced :
    let nameless : Record := ⟨none, .ofList [("age", .null)]⟩
    let adam : Record := ⟨none, .ofList [("age", .int64 3), ("name", .text "Adam")]⟩
    let f : Fetcher := fun _ => .ok [.ok nameless, .ok adam, .error (.io "lost")]
    let recordsOf : SetAddress → List Record := fun _ => [nameless, adam]
    let age : Column :=
      { name := "age", label := some "years", schema := "test", table := "people" }
    let everyone : Column := { name := "*", schema := "test", table := "people" }
    let pets : Column := { name := "*", schema := "test", table := "pets" }
    let columns := [age, everyone, pets]
    (∀ t, ∃ events, f t = .ok events ∧ events.take 2 = (recordsOf t).map .ok) ∧
      ((columns.filter fun c => !c.isWildcard).map located).Nodup ∧
      ((columns.filter Column.isWildcard).map tableOf).Nodup ∧
      ∃ part after, discover (f.sample 2) columns [] = .ok (columns.flatMap part) after ∧
        (∀ c ∈ columns, Announced columns recordsOf c (part c)) ∧
        ((columns.flatMap part).map located).Nodup := by
  intro nameless adam f recordsOf age everyone pets columns
  have hrecords : ∀ t, ∃ events, f t = .ok events ∧ events.take 2 = (recordsOf t).map .ok :=
    fun t => ⟨_, rfl, rfl⟩
  have hnames : ((columns.filter fun c => !c.isWildcard).map located).Nodup := by decide
  have htables : ((columns.filter Column.isWildcard).map tableOf).Nodup := by decide
  obtain ⟨part, after, hrun, hpart, hnodup⟩ := discovered_columns f 2 recordsOf hrecords columns []
  exact ⟨hrecords, hnames, htables, part, after, hrun, hpart, hnodup hnames htables⟩

end KeyedRows.Discovery
