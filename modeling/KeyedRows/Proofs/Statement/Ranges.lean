/-
# Ranges in other words

A comparison with one bound is the range from it to the end of the integers
(`classify_greater`, `classify_less`), a range is its two halves
(`passes_halves`), and equality with a number is the range of its integer part
alone (`passes_single`). So a predicate may be put in the place of others that
say the same (`Rephrased`), anywhere in a list: the plan is another one, with
more or fewer filters behind the store's call, and still it fails with the same
error or reads the same records.

Key definitions: `Rephrased`, `ReadAlike`.
Key theorem: **`comparisons_rephrased`**.
-/
import KeyedRows.Proofs.Plan.NormalForm
import KeyedRows.Proofs.Statement.Where

namespace KeyedRows

/-! ### One predicate -/

namespace Operators

variable {keyColumn : String} {plan : QueryPlan} {column : String}

/-- A range is planned as its filter, and fails with the first operand that is
no number. -/
theorem classify_between (low high : Value) :
    (builtIn keyColumn).classify plan (.between column low high) =
      match low.truncated?, high.truncated? with
      | some l, some h => .ok (plan.withFilter (.within column l h))
      | some _, none => .error (.invalidValue column high)
      | none, _ => .error (.invalidValue column low) := by
  apply classify_of_classify?
  rw [classify?_of_symbol (o := .between) (Operator.ofSymbol?_symbol .between)]
  have hlow : (Predicate.between column low high).operand 0 = .ok low := rfl
  have hhigh : (Predicate.between column low high).operand 1 = .ok high := rfl
  simp only [Operator.rule, Rule.between, Predicate.integer, hlow, hhigh, bind, Except.bind]
  cases low.truncated? with
  | none => exact follow_error _
  | some l =>
    cases high.truncated? with
    | none => exact follow_error _
    | some h => exact follow_planned _

/-- **Greater is the range to the largest integer.** -/
theorem classify_greater (keyColumn : String) (plan : QueryPlan) (column : String) (v : Value) :
    (builtIn keyColumn).classify plan (.greater column v) =
      (builtIn keyColumn).classify plan (.between column v (.int64 Int64.maxValue)) := by
  have hrule : Operator.greater.rule keyColumn plan (.greater column v) =
      .ok (.replaced (.between column v (.int64 Int64.maxValue))) := rfl
  rw [classify, classify?_of_symbol (o := .greater) (Operator.ofSymbol?_symbol .greater), hrule,
    follow_replaced, ← classify]

/-- **Less is the range from the smallest integer.** -/
theorem classify_less (keyColumn : String) (plan : QueryPlan) (column : String) (v : Value) :
    (builtIn keyColumn).classify plan (.less column v) =
      (builtIn keyColumn).classify plan (.between column (.int64 Int64.minValue) v) := by
  have hrule : Operator.less.rule keyColumn plan (.less column v) =
      .ok (.replaced (.between column (.int64 Int64.minValue) v)) := rfl
  rw [classify, classify?_of_symbol (o := .less) (Operator.ofSymbol?_symbol .less), hrule,
    follow_replaced, ← classify]

theorem condition_equal_number {v : Value} {n : Int64} (hv : v.truncated? = some n)
    (hcolumn : column ≠ keyColumn) (home : SetAddress) :
    (Predicate.equal column v).condition? keyColumn home =
      some (.filter (.equals column (.int n))) := by
  have hsymbol : Operator.ofSymbol? (Predicate.equal column v).operator = some .equal :=
    Operator.ofSymbol?_symbol .equal
  have hvalue : (Predicate.equal column v).values[0]? = some v := rfl
  have hname : (Predicate.equal column v).column = column := rfl
  have hoperand : v.operand? = some (.int n) := by
    cases v <;> simp_all [Value.operand?, Value.truncated?, Value.toInt64?]
  simp only [Predicate.condition?, hsymbol, hvalue, hname, hcolumn, hoperand, if_false, bind,
    Option.bind_some]
  rfl

/-- Equality with a number, on a column that is not the key column, is planned as
its filter. -/
theorem classify_equal_number {v : Value} {n : Int64} (hv : v.truncated? = some n)
    (hcolumn : column ≠ keyColumn) :
    (builtIn keyColumn).classify plan (.equal column v) =
      .ok (plan.withFilter (.equals column (.int n))) :=
  classify_of_condition (condition_equal_number hv hcolumn _)

end Operators

/-! ### Values in a range -/

namespace Filter

theorem within_accepts_iff {column : String} {low high : Int64} {bins : Bins} :
    (within column low high).accepts bins = true ↔
      ∃ n, (bins.read column).toInt64? = some n ∧ low ≤ n ∧ n ≤ high :=
  accepts_iff (within column low high) bins

/-- A range is its two halves. -/
theorem passes_halves (column : String) (low high : Int64) (bins : Bins) :
    passes [within column low high] bins =
      passes [within column low Int64.maxValue, within column Int64.minValue high] bins := by
  rw [Bool.eq_iff_iff]
  simp only [passes, List.all_cons, List.all_nil, Bool.and_true, Bool.and_eq_true,
    within_accepts_iff]
  constructor
  · rintro ⟨n, hn, hlow, hhigh⟩
    exact ⟨⟨n, hn, hlow, Int64.le_maxValue n⟩, n, hn, Int64.minValue_le n, hhigh⟩
  · rintro ⟨⟨n, hn, hlow, -⟩, n', hn', -, hhigh⟩
    obtain rfl : n = n' := Option.some.inj (hn.symm.trans hn')
    exact ⟨n, hn, hlow, hhigh⟩

/-- A number is the range of itself alone. -/
theorem passes_single (column : String) (n : Int64) (bins : Bins) :
    passes [equals column (.int n)] bins = passes [within column n n] bins := by
  rw [Bool.eq_iff_iff]
  simp only [passes, List.all_cons, List.all_nil, Bool.and_true, within_accepts_iff]
  rw [accepts_iff, Condition.HoldsOf]
  constructor
  · intro hn
    exact ⟨n, hn, Int64.le_refl n, Int64.le_refl n⟩
  · rintro ⟨n', hn', hlow, hhigh⟩
    rw [Int64.le_antisymm hlow hhigh]
    exact hn'

end Filter

theorem Value.truncated?_of_isNumeric {v : Value} (h : v.isNumeric = true) :
    ∃ n, v.truncated? = some n := by
  cases v with
  | float32 x => exact ⟨_, rfl⟩
  | float64 x => exact ⟨_, rfl⟩
  | _ => simp_all [isNumeric, toFloat?, truncated?, toInt64?]

/-! ### Lists of predicates -/

section

variable {α β ε : Type} {f : β → α → Except ε β}

theorem verdict_eq_iff {γ : Type} {x : Except ε β} {y : Except ε γ} : verdict x = verdict y ↔
    (∃ b c, x = .ok b ∧ y = .ok c) ∨ ∃ e, x = .error e ∧ y = .error e := by
  cases x <;> cases y <;> simp [verdict, Except.map, eq_comm]

/-- A fold whose steps fail alike from wherever they start fails alike from
wherever it starts. -/
theorem verdict_foldlM (halike : ∀ a b c, verdict (f b a) = verdict (f c a)) :
    ∀ (l : List α) (b c : β), verdict (l.foldlM f b) = verdict (l.foldlM f c)
  | [], _, _ => rfl
  | a :: l, b, c => by
    rw [List.foldlM_cons, List.foldlM_cons]
    rcases verdict_eq_iff.mp (halike a b c) with ⟨b', c', hb, hc⟩ | ⟨e, hb, hc⟩
    · rw [hb, hc]
      exact verdict_foldlM halike l b' c'
    · rw [hb, hc]

/-- Parts that fail alike may be exchanged in a list. -/
theorem verdict_foldlM_exchanged (halike : ∀ a b c, verdict (f b a) = verdict (f c a))
    {part other : List α} (hpart : ∀ b, verdict (part.foldlM f b) = verdict (other.foldlM f b))
    (before rest : List α) (b : β) :
    verdict ((before ++ part ++ rest).foldlM f b) =
      verdict ((before ++ other ++ rest).foldlM f b) := by
  simp only [List.foldlM_append, bind_assoc]
  cases before.foldlM f b with
  | error e => rfl
  | ok c =>
    show verdict (part.foldlM f c >>= fun d => rest.foldlM f d) =
      verdict (other.foldlM f c >>= fun d => rest.foldlM f d)
    rcases verdict_eq_iff.mp (hpart c) with ⟨d, d', hd, hd'⟩ | ⟨e, hd, hd'⟩
    · rw [hd, hd']
      exact verdict_foldlM halike rest d d'
    · rw [hd, hd']

end

/-- The second predicates say the same as the first: a range and its two halves, or
equality with a number, on a column that is not the key column, and the range of
this number alone. -/
inductive Rephrased (keyColumn : String) : List Predicate → List Predicate → Prop where
  | halves (column : String) (low high : Value) :
      Rephrased keyColumn [.between column low high] [.greater column low, .less column high]
  | single (column : String) (v : Value) : v.isNumeric = true → column ≠ keyColumn →
      Rephrased keyColumn [.equal column v] [.between column v v]

namespace Rephrased

variable {keyColumn : String} {part other : List Predicate}

/-- They fail with the same error, whatever the plan before them. -/
theorem verdict_eq (h : Rephrased keyColumn part other) (plan : QueryPlan) :
    verdict (part.foldlM (Operators.builtIn keyColumn).classify plan) =
      verdict (other.foldlM (Operators.builtIn keyColumn).classify plan) := by
  cases h with
  | halves column low high =>
    have hmax : (Value.int64 Int64.maxValue).truncated? = some Int64.maxValue := rfl
    have hmin : (Value.int64 Int64.minValue).truncated? = some Int64.minValue := rfl
    simp only [List.foldlM_cons, List.foldlM_nil, bind_pure, Operators.classify_greater,
      Operators.classify_less, Operators.classify_between, hmax, hmin]
    cases low.truncated? with
    | none => rfl
    | some l =>
      simp only [bind, Except.bind]
      cases high.truncated? <;> rfl
  | single column v hv hcolumn =>
    obtain ⟨n, hn⟩ := Value.truncated?_of_isNumeric hv
    simp only [List.foldlM_cons, List.foldlM_nil, bind_pure,
      Operators.classify_equal_number hn hcolumn, Operators.classify_between, hn]
    rfl

/-- If they can be planned, both ask for filters, which let pass the same bins. -/
theorem filters_of_conditions (h : Rephrased keyColumn part other) (home : SetAddress)
    {cs : List Condition} (hcs : part.map (·.condition? keyColumn home) = cs.map some) :
    ∃ fs gs : List Filter, cs = fs.map .filter ∧
      other.map (·.condition? keyColumn home) = (gs.map Condition.filter).map some ∧
      ∀ bins, passes fs bins = passes gs bins := by
  have hone {p : Predicate} (hp : [p].map (·.condition? keyColumn home) = cs.map some) :
      ∃ c, p.condition? keyColumn home = some c ∧ cs = [c] := by
    obtain ⟨c, rfl, hc⟩ := List.map_eq_singleton_iff.mp hp.symm
    exact ⟨c, hc.symm, rfl⟩
  cases h with
  | halves column low high =>
    obtain ⟨c, hc, rfl⟩ := hone hcs
    have hgreater : (Predicate.greater column low).condition? keyColumn home = _ :=
      Operators.condition_greater home (Operator.ofSymbol?_symbol .greater) rfl
    have hless : (Predicate.less column high).condition? keyColumn home = _ :=
      Operators.condition_less home (Operator.ofSymbol?_symbol .less) rfl
    simp only [List.map_cons, List.map_nil, hgreater, hless]
    simp only [Operators.condition_between] at hc ⊢
    cases hl : low.truncated? with
    | none => simp [hl] at hc
    | some l =>
      cases hh : high.truncated? with
      | none => simp [hl, hh] at hc
      | some h =>
        refine ⟨[.within column l h], [.within column l Int64.maxValue,
          .within column Int64.minValue h], ?_, rfl, Filter.passes_halves column l h⟩
        simpa [hl, hh] using hc.symm
  | single column v hv hcolumn =>
    obtain ⟨c, hc, rfl⟩ := hone hcs
    obtain ⟨n, hn⟩ := Value.truncated?_of_isNumeric hv
    rw [Operators.condition_equal_number hn hcolumn] at hc
    refine ⟨[.equals column (.int n)], [.within column n n], ?_, ?_, Filter.passes_single column n⟩
    · rw [← Option.some.inj hc]
      rfl
    · rw [List.map_singleton, Operators.condition_between, hn]
      rfl

end Rephrased

/-! ### What is read -/

theorem filtersOf_map_filter (fs : List Filter) : filtersOf (fs.map .filter) = fs := by
  induction fs with
  | nil => rfl
  | cons f fs ih => rw [List.map_cons, filtersOf, List.filterMap_cons, ← filtersOf, ih]

/-- Filters ask for no key. -/
theorem lastKey_filters (before rest : List Condition) (fs : List Filter) :
    lastKey (before ++ fs.map .filter ++ rest) = lastKey (before ++ rest) := by
  simp [lastKey, List.filterMap_map]

/-- Filters that let pass the same bins may be exchanged. -/
theorem MemoryStore.selected_exchanged (m : MemoryStore) (home : SetAddress) {fs gs : List Filter}
    (h : ∀ bins, passes fs bins = passes gs bins) (before rest : List Condition) :
    m.selected home (before ++ fs.map .filter ++ rest) =
      m.selected home (before ++ gs.map .filter ++ rest) := by
  have hpasses (hs : List Filter) (bins : Bins) :
      passes (filtersOf (before ++ hs.map .filter ++ rest)) bins =
        (passes (filtersOf before) bins && passes hs bins && passes (filtersOf rest) bins) := by
    simp only [filtersOf, List.filterMap_append, passes, List.all_append]
    rw [← filtersOf, ← filtersOf, ← filtersOf, filtersOf_map_filter]
  simp only [selected, lastKey_filters, hpasses, h]

/-- Over a store in memory the two statements read the same records, and show them
as the same rows, whether they discover types first or not. -/
def ReadAlike (m : MemoryStore) (s s' : Select) : Prop :=
  ∃ rows, Delivers s.plan.execute m rows ∧ Delivers s'.plan.execute m rows ∧
    ∀ (discovers : Bool) (cl : Client), cl.Serves m →
      let values := RecordCursor.reading s.columns s.settings
      (∃ after, Yields ({ s with discovers } : Select).run values cl rows after) ∧
        ∃ after, Yields ({ s' with discovers } : Select).run values cl rows after

section

variable {settings : Settings} {columns : List Column} {predicates : List Predicate}

/-- A prepared select over a set reads the records that meet what its predicates
ask for. -/
theorem delivers_of_conditions {setName : String} {cs : List Condition} {s : Select}
    (hs : Select.prepare settings (some setName) columns predicates = .ok s)
    (hcs : predicates.map (·.condition? settings.keyColumn ⟨settings.space, setName⟩) =
      cs.map some) (m : MemoryStore) :
    Delivers s.plan.execute m (m.selected ⟨settings.space, setName⟩ cs) := by
  obtain ⟨plan, hplan, rfl⟩ := Select.prepare_eq_ok hs
  obtain rfl := Except.ok.inj (hplan.symm.trans (ofPredicates_of_conditions hcs))
  obtain ⟨hspace, hset⟩ := QueryPlan.home?_conditions settings.space (some setName) cs
  rw [← m.fetched_selected (QueryPlan.planned_conditions settings.space (some setName) cs)
    (home_of_lastKey hcs)]
  refine execute_delivers ?_ m
  rw [QueryPlan.home?, hset, hspace]
  rfl

/-- A prepared select without a set reads nothing. -/
theorem run_without_set {s : Select}
    (hs : Select.prepare settings none columns predicates = .ok s) (discovers : Bool) :
    ({ s with discovers } : Select).run = pure (.ofStatic .constant) := by
  obtain ⟨plan, hplan, rfl⟩ := Select.prepare_eq_ok hs
  obtain ⟨cs, -, rfl⟩ := planned_ofPredicates hplan
  obtain ⟨-, hset⟩ := QueryPlan.home?_conditions settings.space none cs
  have hhome : (cs.foldl QueryPlan.withCondition (.start settings.space none)).home? = none := by
    rw [QueryPlan.home?, hset]
    rfl
  simp only [Select.run, hhome]

end

/-- A select can be prepared exactly if its predicates can be planned. -/
theorem verdict_prepare (settings : Settings) (setName : Option String) (columns : List Column)
    (predicates : List Predicate) : verdict (Select.prepare settings setName columns predicates) =
      verdict (QueryPlan.ofPredicates (.builtIn settings.keyColumn) settings.space setName
        predicates) := by
  unfold Select.prepare
  cases QueryPlan.ofPredicates (.builtIn settings.keyColumn) settings.space setName predicates <;>
    rfl

/-- Rephrased predicates have a select read what it read. -/
theorem Rephrased.readAlike {settings : Settings} {setName : String} {columns : List Column}
    {part other : List Predicate} (h : Rephrased settings.keyColumn part other)
    {before rest : List Predicate} {s s' : Select}
    (hs : Select.prepare settings (some setName) columns (before ++ part ++ rest) = .ok s)
    (hs' : Select.prepare settings (some setName) columns (before ++ other ++ rest) = .ok s')
    (m : MemoryStore) : ReadAlike m s s' := by
  let home : SetAddress := ⟨settings.space, setName⟩
  let asked (p : Predicate) : Option Condition := p.condition? settings.keyColumn home
  obtain ⟨plan, hplan, hsplan⟩ := Select.prepare_eq_ok hs
  obtain ⟨cs, hcs, -⟩ := planned_ofPredicates hplan
  have hsplit : cs.map some = before.map asked ++ part.map asked ++ rest.map asked := by
    rw [← List.map_append, ← List.map_append]
    exact hcs.symm
  obtain ⟨cfront, crest, rfl, hfront, hrest⟩ := List.map_eq_append_iff.mp hsplit
  obtain ⟨cbefore, cpart, rfl, hbefore, hpart⟩ := List.map_eq_append_iff.mp hfront
  obtain ⟨fs, gs, rfl, hother, hpasses⟩ := h.filters_of_conditions home hpart.symm
  have hcs' : (before ++ other ++ rest).map asked =
      (cbefore ++ gs.map Condition.filter ++ crest).map some := by
    rw [List.map_append, List.map_append, ← hbefore, ← hrest, List.map_append, List.map_append,
      ← hother]
  have hsame := m.selected_exchanged home hpasses cbefore crest
  refine ⟨m.selected home (cbefore ++ fs.map .filter ++ crest), delivers_of_conditions hs hcs m,
    hsame ▸ delivers_of_conditions hs' hcs' m, fun discovers cl hm => ?_⟩
  obtain ⟨t, last, ht, hyields, -⟩ := select_of_conditions columns hcs discovers hm
  obtain ⟨t', last', ht', hyields', -⟩ := select_of_conditions columns hcs' discovers hm
  obtain rfl := Except.ok.inj (hs.symm.trans ht)
  obtain rfl := Except.ok.inj (hs'.symm.trans ht')
  subst hsplan
  exact ⟨⟨last, hyields⟩, last', hsame ▸ hyields'⟩

/-- **Comparisons in other words.** Greater and less are planned as the ranges to
either end of the integers, on every plan and with every operand. Anywhere in a
list of predicates, a range may be replaced by its two halves, and equality with a
number, on a column that is not the key column, by the range of this number alone:
the select fails with the same error, or reads the same records. -/
theorem comparisons_rephrased (settings : Settings) (setName : Option String)
    (columns : List Column) :
    (∀ plan column v,
      let classify := (Operators.builtIn settings.keyColumn).classify plan
      classify (.greater column v) = classify (.between column v (.int64 Int64.maxValue)) ∧
        classify (.less column v) = classify (.between column (.int64 Int64.minValue) v)) ∧
    ∀ before part other rest, Rephrased settings.keyColumn part other →
      match Select.prepare settings setName columns (before ++ part ++ rest),
        Select.prepare settings setName columns (before ++ other ++ rest) with
      | .ok s, .ok s' =>
        match setName with
        | some _ => ∀ m, ReadAlike m s s'
        | none => ∀ discovers,
          ({ s with discovers } : Select).run = ({ s' with discovers } : Select).run
      | .error e, .error e' => e = e'
      | _, _ => False := by
  refine ⟨fun plan column v => ⟨Operators.classify_greater .., Operators.classify_less ..⟩,
    fun before part other rest h => ?_⟩
  have hverdict : verdict (Select.prepare settings setName columns (before ++ part ++ rest)) =
      verdict (Select.prepare settings setName columns (before ++ other ++ rest)) := by
    rw [verdict_prepare, verdict_prepare]
    exact verdict_foldlM_exchanged (Operators.classify_alike settings.keyColumn) h.verdict_eq
      before rest _
  rcases verdict_eq_iff.mp hverdict with ⟨s, s', hs, hs'⟩ | ⟨e, he, he'⟩
  · rw [hs, hs']
    cases setName with
    | some setName => exact h.readAlike hs hs'
    | none =>
      intro discovers
      rw [run_without_set hs, run_without_set hs']
  · rw [he, he']

/-- A range between a filter and a key: the plan with its halves keeps a filter more
behind the look-up. -/
theorem range_rephrased_beside_key :
    let part : List Predicate := [.between "year" (.int32 1990) (.int16 2000)]
    let other : List Predicate := [.greater "year" (.int32 1990), .less "year" (.int16 2000)]
    let before : List Predicate := [.equal "name" (.text "ann")]
    let rest : List Predicate := [.equal "PK" (.int64 2)]
    let home : SetAddress := ⟨"test", "people"⟩
    let plan (years : List Filter) : QueryPlan :=
      { space := "test"
        setName := some "people"
        access := .point ⟨home, .int 2⟩
        residual := years ++ [.equals "name" (.text "ann")] }
    let s : Select :=
      { settings := {}, plan := plan [.within "year" 1990 2000], columns := [] }
    let s' : Select :=
      { settings := {}
        plan := plan [.within "year" 1990 Int64.maxValue, .within "year" Int64.minValue 2000]
        columns := [] }
    Rephrased "PK" part other ∧
      Select.prepare {} (some "people") [] (before ++ part ++ rest) = .ok s ∧
      Select.prepare {} (some "people") [] (before ++ other ++ rest) = .ok s' ∧
      ∀ m, ReadAlike m s s' := by
  intro part other before rest home plan s s'
  have hpart : Rephrased "PK" part other := .halves "year" (.int32 1990) (.int16 2000)
  have hs : Select.prepare {} (some "people") [] (before ++ part ++ rest) = .ok s := by cbv
  have hs' : Select.prepare {} (some "people") [] (before ++ other ++ rest) = .ok s' := by cbv
  refine ⟨hpart, hs, hs', ?_⟩
  have h := (comparisons_rephrased {} (some "people") []).2 before part other rest hpart
  rw [hs, hs'] at h
  exact h

end KeyedRows
