/-
# What a plan asks for

The predicates of a statement ask for records that pass filters and for
records under a key. Whatever their order, the plan of such conditions looks up
the last key if there is one, else pushes the first filter if there is one, and
keeps every other filter (`Planned`), so no condition is lost but the keys
before the last.

What a predicate asks for is read off its symbol and its operands
(`Predicate.condition?`), and the built-in operators give it that meaning and
fail where it has none (`classify?_builtIn`), so they always come to an answer.
The built-in rules read no plan to decide (`rule_alike`).

Key definitions: `Condition`, `filtersOf`, `lastKey`, `Planned`,
`Predicate.condition?`. Key theorem: **`planned_ofPredicates`**.
-/
import KeyedRows.Plan.Operators
import KeyedRows.Proofs.Store.Memory

namespace KeyedRows

/-- What a plan is asked for: records that pass a filter, or the one under a
key. -/
inductive Condition where
  | filter (f : Filter)
  | key (key : Key)

/-- The filters among conditions, in order. -/
def filtersOf (conditions : List Condition) : List Filter :=
  conditions.filterMap fun
    | .filter f => some f
    | .key _ => none

/-- The last key among conditions. -/
def lastKey (conditions : List Condition) : Option Key :=
  (conditions.filterMap fun
    | .filter _ => none
    | .key key => some key).getLast?

namespace QueryPlan

/-- The plan with one more condition. -/
def withCondition (p : QueryPlan) : Condition → QueryPlan
  | .filter f => p.withFilter f
  | .key key => p.withPoint key

/-- The filter that the plan pushes to the store. -/
def pushed? (p : QueryPlan) : Option Filter :=
  match p.access with
  | .pushed f => some f
  | _ => none

/-- The plan asks for these conditions: it looks up the last key, or pushes the
first filter, and the filter that it pushes and those that stay behind are the
filters of the conditions. -/
structure Planned (p : QueryPlan) (conditions : List Condition) : Prop where
  access : p.access = match lastKey conditions, filtersOf conditions with
    | some key, _ => .point key
    | none, f :: _ => .pushed f
    | none, [] => .fullScan
  filters : (p.pushed?.toList ++ p.residual).Perm (filtersOf conditions)

theorem filtersOf_append (cs : List Condition) (c : Condition) :
    filtersOf (cs ++ [c]) = filtersOf cs ++ match c with
      | .filter f => [f]
      | .key _ => [] := by
  cases c <;> simp [filtersOf]

theorem lastKey_append (cs : List Condition) (c : Condition) :
    lastKey (cs ++ [c]) = match c with
      | .filter _ => lastKey cs
      | .key key => some key := by
  cases c <;> simp [lastKey]

theorem Planned.withFilter {p : QueryPlan} {cs : List Condition} (h : p.Planned cs) (f : Filter) :
    (p.withFilter f).Planned (cs ++ [.filter f]) := by
  obtain ⟨space, setName, access, residual⟩ := p
  obtain ⟨haccess, hfilters⟩ := h
  simp only [pushed?] at haccess hfilters
  refine ⟨?_, ?_⟩
  · rw [filtersOf_append, lastKey_append]
    cases hkey : lastKey cs with
    | some key => rw [haccess, hkey]; rfl
    | none =>
      cases hfs : filtersOf cs with
      | nil => rw [haccess, hkey, hfs]; rfl
      | cons g gs => rw [haccess, hkey, hfs]; rfl
  · rw [filtersOf_append]
    cases access with
    | fullScan => exact List.perm_append_comm.trans (hfilters.append_right [f])
    | point key => exact hfilters.append_right [f]
    | pushed g => exact hfilters.append_right [f]

theorem Planned.withPoint {p : QueryPlan} {cs : List Condition} (h : p.Planned cs) (key : Key) :
    (p.withPoint key).Planned (cs ++ [.key key]) := by
  obtain ⟨space, setName, access, residual⟩ := p
  obtain ⟨-, hfilters⟩ := h
  simp only [pushed?] at hfilters
  refine ⟨?_, ?_⟩
  · rw [lastKey_append]
    cases access <;> rfl
  · rw [filtersOf_append, List.append_nil]
    cases access with
    | fullScan => exact hfilters
    | point key => exact hfilters
    | pushed g =>
      show (residual ++ [g]).Perm (filtersOf cs)
      exact List.perm_append_comm.trans hfilters

/-- **A plan asks for the conditions that it was given**, in whatever order. -/
theorem planned_conditions (space : String) (setName : Option String) (cs : List Condition) :
    (cs.foldl withCondition (start space setName)).Planned cs := by
  induction cs using List.reverseRecOn with
  | nil => exact ⟨rfl, .nil⟩
  | append_singleton cs c ih =>
    rw [List.foldl_append, List.foldl_cons, List.foldl_nil]
    cases c with
    | filter f => exact ih.withFilter f
    | key key => exact ih.withPoint key

/-- A condition leaves a plan in its set. -/
theorem home_withCondition (p : QueryPlan) (c : Condition) :
    (p.withCondition c).space = p.space ∧ (p.withCondition c).setName = p.setName := by
  cases c with
  | filter f =>
    simp only [withCondition, withFilter]
    split <;> exact ⟨rfl, rfl⟩
  | key key =>
    simp only [withCondition, withPoint]
    split <;> exact ⟨rfl, rfl⟩

/-- Conditions leave a plan in its set. -/
theorem home?_conditions (space : String) (setName : Option String) (cs : List Condition) :
    (cs.foldl withCondition (start space setName)).space = space ∧
      (cs.foldl withCondition (start space setName)).setName = setName := by
  induction cs using List.reverseRecOn with
  | nil => exact ⟨rfl, rfl⟩
  | append_singleton cs c ih =>
    rw [List.foldl_append, List.foldl_cons, List.foldl_nil]
    obtain ⟨hspace, hset⟩ := home_withCondition (cs.foldl withCondition (start space setName)) c
    exact ⟨hspace.trans ih.1, hset.trans ih.2⟩

end QueryPlan

/-! ### What predicates ask for -/

/-- The operator of a symbol, in any letter case. -/
def Operator.ofSymbol? (symbol : String) : Option Operator :=
  [Operator.equal, .greater, .less, .between].find? fun o => o.symbol == symbol.toUpper

/-- What a bin is compared with: a text with a text, and a number with its
integer part. -/
def Value.operand? : Value → Option Operand
  | .text s => some (.text s)
  | v => v.truncated?.map .int

namespace Predicate

/-- The operand at an index as an integer. -/
def integer? (p : Predicate) (i : ℕ) : Option Int64 := p.values[i]? >>= Value.truncated?

/-- What a predicate asks for in a set with this key column: a key, or what its
filter accepts; nothing if its operands do not fit its operator. -/
def condition? (keyColumn : String) (home : SetAddress) (p : Predicate) : Option Condition := do
  match ← Operator.ofSymbol? p.operator with
  | .equal =>
    let v ← p.values[0]?
    if p.column = keyColumn then return .key ⟨home, ← v.key?⟩
    else return .filter (.equals p.column (← v.operand?))
  | .greater => return .filter (.within p.column (← p.integer? 0) Int64.maxValue)
  | .less => return .filter (.within p.column Int64.minValue (← p.integer? 0))
  | .between => return .filter (.within p.column (← p.integer? 0) (← p.integer? 1))

/-- A predicate asks for a key of its set, by the key column, or filters by the
bin of its column. -/
theorem condition_cases {keyColumn : String} {home : SetAddress} {p : Predicate} {c : Condition}
    (h : p.condition? keyColumn home = some c) :
    (∃ user, p.column = keyColumn ∧ c = .key ⟨home, user⟩) ∨
      ∃ f : Filter, c = .filter f ∧ f.bin = p.column := by
  unfold condition? at h
  cases ho : Operator.ofSymbol? p.operator with
  | none => rw [ho] at h; cases h
  | some o =>
    rw [ho] at h
    cases o with
    | equal =>
      cases hv : p.values[0]? with
      | none => simp [hv] at h
      | some v =>
        by_cases hc : p.column = keyColumn
        · cases hk : v.key? with
          | none => simp [hv, hc, hk] at h
          | some user => exact .inl ⟨user, hc, by simpa [hv, hc, hk] using h.symm⟩
        · cases hk : v.operand? with
          | none => simp [hv, hc, hk] at h
          | some x => exact .inr ⟨_, by simpa [hv, hc, hk] using h.symm, rfl⟩
    | greater =>
      cases hn : p.integer? 0 with
      | none => simp [hn] at h
      | some n => exact .inr ⟨_, by simpa [hn] using h.symm, rfl⟩
    | less =>
      cases hn : p.integer? 0 with
      | none => simp [hn] at h
      | some n => exact .inr ⟨_, by simpa [hn] using h.symm, rfl⟩
    | between =>
      cases hlow : p.integer? 0 with
      | none => simp [hlow] at h
      | some low =>
        cases hhigh : p.integer? 1 with
        | none => simp [hlow, hhigh] at h
        | some high => exact .inr ⟨_, by simpa [hlow, hhigh] using h.symm, rfl⟩

/-- A predicate asks for keys of its set only. -/
theorem home_of_condition {keyColumn : String} {home : SetAddress} {p : Predicate} {key : Key}
    (h : p.condition? keyColumn home = some (.key key)) : key.home = home := by
  rcases condition_cases h with ⟨user, -, hkey⟩ | ⟨f, hf, -⟩
  · cases hkey
    rfl
  · cases hf

/-- A predicate filters by the bin of its column. -/
theorem bin_of_condition {keyColumn : String} {home : SetAddress} {p : Predicate} {f : Filter}
    (h : p.condition? keyColumn home = some (.filter f)) : f.bin = p.column := by
  rcases condition_cases h with ⟨user, -, hkey⟩ | ⟨f, hf, hbin⟩
  · cases hkey
  · cases hf
    exact hbin

end Predicate

theorem mem_of_lastKey {cs : List Condition} {key : Key} (h : lastKey cs = some key) :
    Condition.key key ∈ cs := by
  obtain ⟨c, hc, hkey⟩ := List.mem_filterMap.mp (List.mem_of_getLast? h)
  cases c with
  | filter f => cases hkey
  | key k =>
    cases hkey
    exact hc

/-- The built-in rule of an operator. -/
def Operator.rule : Operator → Rule
  | .equal => Rule.equal
  | .greater => Rule.greater
  | .less => Rule.less
  | .between => Rule.between

theorem Operator.symbol_toUpper (o : Operator) : o.symbol.toUpper = o.symbol := by
  cases o <;> decide +kernel

theorem Operator.ofSymbol?_symbol (o : Operator) : Operator.ofSymbol? o.symbol = some o := by
  rw [Operator.ofSymbol?, o.symbol_toUpper]
  cases o <;> rfl

namespace Operators

/-- The built-in operators are found by their symbols, and no others. -/
theorem find_builtIn (keyColumn symbol : String) : (builtIn keyColumn).find symbol =
    match Operator.ofSymbol? symbol with
    | some o => .ok o.rule
    | none => .error (.unknownOperator symbol) := by
  simp only [find, builtIn, register, Operator.symbol_toUpper, Operator.ofSymbol?]
  generalize symbol.toUpper = upper
  by_cases hequal : upper = "="
  · subst hequal; rfl
  by_cases hgreater : upper = ">"
  · subst hgreater; rfl
  by_cases hless : upper = "<"
  · subst hless; rfl
  by_cases hbetween : upper = "BETWEEN"
  · subst hbetween; rfl
  have hne : ∀ o : Operator, (upper == o.symbol) = false := by
    intro o
    cases o <;> simpa [Operator.symbol]
  have hne' : ∀ o : Operator, (o.symbol == upper) = false := fun o => by
    rw [Bool.beq_comm]
    exact hne o
  simp [List.lookup, hne, hne']

theorem integer_cases (p : Predicate) (i : ℕ) :
    (∃ n, p.integer? i = some n ∧ p.integer i = .ok n) ∨
      p.integer? i = none ∧ ∃ e, p.integer i = .error e := by
  unfold Predicate.integer Predicate.operand Predicate.integer?
  cases p.values[i]? with
  | none => exact .inr ⟨rfl, _, rfl⟩
  | some v =>
    cases hv : v.truncated? with
    | none => exact .inr ⟨hv, by simp [bind, Except.bind, hv]⟩
    | some n => exact .inl ⟨n, hv, by simp [bind, Except.bind, hv]⟩

/-- **A built-in rule reads no plan to decide.** On all plans it fails with one
error, or it plans, or it puts one range in the place of its predicate, which the
rule of ranges does not. -/
theorem rule_alike (o : Operator) (keyColumn : String) (p : Predicate) (plan plan' : QueryPlan) :
    (∃ e, o.rule keyColumn plan p = .error e ∧ o.rule keyColumn plan' p = .error e) ∨
      (∃ q q', o.rule keyColumn plan p = .ok (.planned q) ∧
        o.rule keyColumn plan' p = .ok (.planned q')) ∨
      o ≠ .between ∧ ∃ low high,
        o.rule keyColumn plan p = .ok (.replaced (.between p.column low high)) ∧
          o.rule keyColumn plan' p = .ok (.replaced (.between p.column low high)) := by
  cases o with
  | equal =>
    simp only [Operator.rule, Rule.equal, bind, Except.bind]
    cases p.operand 0 with
    | error e => exact .inl ⟨e, rfl, rfl⟩
    | ok v =>
      by_cases hkey : p.column = keyColumn
      · simp only [hkey, if_true]
        cases UserKey.ofValue keyColumn v with
        | error e => exact .inl ⟨e, rfl, rfl⟩
        | ok u => exact .inr (.inl ⟨_, _, rfl, rfl⟩)
      · simp only [hkey, if_false]
        cases v <;> first | exact .inr (.inl ⟨_, _, rfl, rfl⟩) | exact .inl ⟨_, rfl, rfl⟩
  | greater =>
    simp only [Operator.rule, Rule.greater, bind, Except.bind]
    cases p.operand 0 with
    | error e => exact .inl ⟨e, rfl, rfl⟩
    | ok v => exact .inr (.inr ⟨by decide, _, _, rfl, rfl⟩)
  | less =>
    simp only [Operator.rule, Rule.less, bind, Except.bind]
    cases p.operand 0 with
    | error e => exact .inl ⟨e, rfl, rfl⟩
    | ok v => exact .inr (.inr ⟨by decide, _, _, rfl, rfl⟩)
  | between =>
    simp only [Operator.rule, Rule.between, bind, Except.bind]
    cases p.integer 0 with
    | error e => exact .inl ⟨e, rfl, rfl⟩
    | ok low =>
      cases p.integer 1 with
      | error e => exact .inl ⟨e, rfl, rfl⟩
      | ok high => exact .inr (.inl ⟨_, _, rfl, rfl⟩)

/-- The plan after a predicate is the plan with what it asks for, or there is
none. -/
def Classified (plan : QueryPlan) (condition : Option Condition)
    (result : Option (Except Error QueryPlan)) : Prop :=
  match condition with
  | some c => result = some (.ok (plan.withCondition c))
  | none => ∃ e, result = some (.error e)

variable {keyColumn : String} {plan : QueryPlan} {p : Predicate}

/-- The rule of the operator decides. -/
theorem classify?_of_symbol {o : Operator} (h : Operator.ofSymbol? p.operator = some o) :
    (builtIn keyColumn).classify? plan p =
      (builtIn keyColumn).follow plan (o.rule keyColumn plan p) :=
  classify?_of_find (by rw [find_builtIn, h])

theorem classified_between (home : SetAddress)
    (h : Operator.ofSymbol? p.operator = some .between) :
    Classified plan (p.condition? keyColumn home) ((builtIn keyColumn).classify? plan p) := by
  rw [classify?_of_symbol h, Predicate.condition?, h]
  simp only [Operator.rule, Rule.between, bind, Except.bind]
  rcases integer_cases p 0 with ⟨low, hlow, hl⟩ | ⟨hlow, e, hl⟩
  · rcases integer_cases p 1 with ⟨high, hhigh, hh⟩ | ⟨hhigh, e, hh⟩
    · rw [hl, hh, hlow, hhigh]
      exact follow_planned _
    · rw [hl, hh, hlow, hhigh]
      exact ⟨e, follow_error e⟩
  · rw [hl, hlow]
    exact ⟨e, follow_error e⟩

theorem operand_cases (p : Predicate) (i : ℕ) :
    (∃ v, p.values[i]? = some v ∧ p.operand i = .ok v) ∨
      p.values[i]? = none ∧ ∃ e, p.operand i = .error e := by
  unfold Predicate.operand
  cases p.values[i]? with
  | none => exact .inr ⟨rfl, _, rfl⟩
  | some v => exact .inl ⟨v, rfl, rfl⟩

theorem condition_between (column : String) (low high : Value) (home : SetAddress) :
    (Predicate.between column low high).condition? keyColumn home = do
      return .filter (.within column (← low.truncated?) (← high.truncated?)) := by
  have hb : Operator.ofSymbol? (Predicate.between column low high).operator = some .between :=
    Operator.ofSymbol?_symbol .between
  rw [Predicate.condition?, hb]
  rfl

/-- A range with one bound asks for the range with the other bound at the
end. -/
theorem condition_greater {v : Value} (home : SetAddress)
    (h : Operator.ofSymbol? p.operator = some .greater) (hv : p.values[0]? = some v) :
    p.condition? keyColumn home =
      (Predicate.between p.column v (.int64 Int64.maxValue)).condition? keyColumn home := by
  rw [condition_between, Predicate.condition?, h]
  simp only [Predicate.integer?, hv, bind, Option.bind_some]
  cases v.truncated? <;> rfl

theorem condition_less {v : Value} (home : SetAddress)
    (h : Operator.ofSymbol? p.operator = some .less) (hv : p.values[0]? = some v) :
    p.condition? keyColumn home =
      (Predicate.between p.column (.int64 Int64.minValue) v).condition? keyColumn home := by
  rw [condition_between, Predicate.condition?, h]
  simp only [Predicate.integer?, hv, bind, Option.bind_some]
  cases v.truncated? <;> rfl

theorem classified_greater (home : SetAddress)
    (h : Operator.ofSymbol? p.operator = some .greater) :
    Classified plan (p.condition? keyColumn home) ((builtIn keyColumn).classify? plan p) := by
  rw [classify?_of_symbol h]
  simp only [Operator.rule, Rule.greater, bind, Except.bind]
  rcases operand_cases p 0 with ⟨v, hv, ho⟩ | ⟨hv, e, ho⟩
  · rw [ho, condition_greater home h hv]
    simp only [pure, Except.pure, follow_replaced]
    exact classified_between home (Operator.ofSymbol?_symbol .between)
  · rw [ho, Predicate.condition?, h]
    simp only [Predicate.integer?, hv]
    exact ⟨e, follow_error e⟩

theorem classified_less (home : SetAddress)
    (h : Operator.ofSymbol? p.operator = some .less) :
    Classified plan (p.condition? keyColumn home) ((builtIn keyColumn).classify? plan p) := by
  rw [classify?_of_symbol h]
  simp only [Operator.rule, Rule.less, bind, Except.bind]
  rcases operand_cases p 0 with ⟨v, hv, ho⟩ | ⟨hv, e, ho⟩
  · rw [ho, condition_less home h hv]
    simp only [pure, Except.pure, follow_replaced]
    exact classified_between home (Operator.ofSymbol?_symbol .between)
  · rw [ho, Predicate.condition?, h]
    simp only [Predicate.integer?, hv]
    exact ⟨e, follow_error e⟩

theorem classified_equal (h : Operator.ofSymbol? p.operator = some .equal) :
    Classified plan (p.condition? keyColumn ⟨plan.space, plan.setName.getD ""⟩)
      ((builtIn keyColumn).classify? plan p) := by
  rw [classify?_of_symbol h, Predicate.condition?, h]
  simp only [Operator.rule, Rule.equal, bind, Except.bind]
  rcases operand_cases p 0 with ⟨v, hv, ho⟩ | ⟨hv, e, ho⟩
  · rw [ho, hv]
    simp only [Option.bind_some]
    split_ifs with hkey
    · cases hof : UserKey.ofValue p.column v with
      | ok u =>
        rw [(UserKey.ofValue_eq_ok _ _ _).mp hof]
        exact follow_planned _
      | error e =>
        have hnone : v.key? = none := by
          cases hu : v.key? with
          | none => rfl
          | some u =>
            rw [(UserKey.ofValue_eq_ok _ _ _).mpr hu] at hof
            cases hof
        rw [hnone]
        exact ⟨e, follow_error e⟩
    · cases v <;> first | exact follow_planned _ | exact ⟨_, follow_error _⟩
  · rw [ho, hv]
    exact ⟨e, follow_error e⟩

/-- **The built-in operators give a predicate its meaning**, and fail where it has
none. -/
theorem classify?_builtIn (keyColumn : String) (plan : QueryPlan) (p : Predicate) :
    Classified plan (p.condition? keyColumn ⟨plan.space, plan.setName.getD ""⟩)
      ((builtIn keyColumn).classify? plan p) := by
  cases ho : Operator.ofSymbol? p.operator with
  | none =>
    rw [Predicate.condition?, ho]
    exact ⟨_, classify?_of_find_error (by rw [find_builtIn, ho])⟩
  | some o =>
    cases o with
    | equal => exact classified_equal ho
    | greater => exact classified_greater _ ho
    | less => exact classified_less _ ho
    | between => exact classified_between _ ho

/-- The built-in operators come to an answer on every predicate. -/
theorem isSome_classify?_builtIn (keyColumn : String) (plan : QueryPlan) (p : Predicate) :
    ((builtIn keyColumn).classify? plan p).isSome := by
  have h := classify?_builtIn keyColumn plan p
  cases hc : p.condition? keyColumn ⟨plan.space, plan.setName.getD ""⟩ with
  | none =>
    rw [hc] at h
    obtain ⟨e, he⟩ := h
    rw [he, Option.isSome_some]
  | some c =>
    rw [hc] at h
    exact Option.isSome_of_mem h

theorem classify_of_condition {c : Condition}
    (h : p.condition? keyColumn ⟨plan.space, plan.setName.getD ""⟩ = some c) :
    (builtIn keyColumn).classify plan p = .ok (plan.withCondition c) := by
  have hp := classify?_builtIn keyColumn plan p
  rw [h] at hp
  exact classify_of_classify? hp

theorem condition_of_classify {plan' : QueryPlan}
    (h : (builtIn keyColumn).classify plan p = .ok plan') :
    ∃ c, p.condition? keyColumn ⟨plan.space, plan.setName.getD ""⟩ = some c ∧
      plan' = plan.withCondition c := by
  cases hc : p.condition? keyColumn ⟨plan.space, plan.setName.getD ""⟩ with
  | none =>
    have hp := classify?_builtIn keyColumn plan p
    rw [hc] at hp
    obtain ⟨e, he⟩ := hp
    rw [classify_of_classify? he] at h
    cases h
  | some c =>
    rw [classify_of_condition hc] at h
    exact ⟨c, rfl, (Except.ok.inj h).symm⟩

end Operators

/-- **The plan of predicates is the plan of what they ask for.** -/
theorem planned_ofPredicates {keyColumn space : String} {setName : Option String}
    {predicates : List Predicate} {plan : QueryPlan}
    (h : QueryPlan.ofPredicates (.builtIn keyColumn) space setName predicates = .ok plan) :
    ∃ conditions : List Condition,
      predicates.map (·.condition? keyColumn ⟨space, setName.getD ""⟩) = conditions.map some ∧
      plan = conditions.foldl QueryPlan.withCondition (QueryPlan.start space setName) := by
  unfold QueryPlan.ofPredicates at h
  induction predicates using List.reverseRecOn generalizing plan with
  | nil =>
    cases h
    exact ⟨[], rfl, rfl⟩
  | append_singleton ps p ih =>
    rw [List.foldlM_append] at h
    cases hps : ps.foldlM (Operators.builtIn keyColumn).classify
        (QueryPlan.start space setName) with
    | error e =>
      rw [hps] at h
      cases h
    | ok before =>
      obtain ⟨cs, hcs, rfl⟩ := ih hps
      have hplan : (Operators.builtIn keyColumn).classify
          (cs.foldl QueryPlan.withCondition (QueryPlan.start space setName)) p = .ok plan := by
        rw [hps] at h
        simp only [List.foldlM_cons, List.foldlM_nil, bind_pure] at h
        exact h
      obtain ⟨c, hc, rfl⟩ := Operators.condition_of_classify hplan
      obtain ⟨hspace, hset⟩ := QueryPlan.home?_conditions space setName cs
      rw [hspace, hset] at hc
      refine ⟨cs ++ [c], by simp [hcs, hc], ?_⟩
      rw [List.foldl_append, List.foldl_cons, List.foldl_nil]

/-- **Predicates that all ask for something have a plan.** -/
theorem ofPredicates_of_conditions {keyColumn space : String} {setName : Option String}
    {predicates : List Predicate} {conditions : List Condition}
    (h : predicates.map (·.condition? keyColumn ⟨space, setName.getD ""⟩) = conditions.map some) :
    QueryPlan.ofPredicates (.builtIn keyColumn) space setName predicates =
      .ok (conditions.foldl QueryPlan.withCondition (QueryPlan.start space setName)) := by
  suffices hfold : ∀ (ps : List Predicate) (cs : List Condition) (plan : QueryPlan),
      plan.space = space → plan.setName = setName →
        ps.map (·.condition? keyColumn ⟨space, setName.getD ""⟩) = cs.map some →
          ps.foldlM (Operators.builtIn keyColumn).classify plan =
            .ok (cs.foldl QueryPlan.withCondition plan) from
    hfold predicates conditions (QueryPlan.start space setName) rfl rfl h
  intro ps
  induction ps with
  | nil =>
    intro cs plan _ _ hcs
    have hnil : cs = [] := by simpa using hcs.symm
    rw [hnil]
    rfl
  | cons p ps ih =>
    intro cs plan hspace hset hcs
    cases cs with
    | nil => cases hcs
    | cons c cs =>
      rw [List.map_cons, List.map_cons, List.cons.injEq] at hcs
      have hclassify : (Operators.builtIn keyColumn).classify plan p =
          .ok (plan.withCondition c) :=
        Operators.classify_of_condition (by rw [hspace, hset, hcs.1])
      obtain ⟨hspace', hset'⟩ := QueryPlan.home_withCondition plan c
      rw [List.foldlM_cons, hclassify, List.foldl_cons]
      exact ih cs (plan.withCondition c) (hspace'.trans hspace) (hset'.trans hset) hcs.2

end KeyedRows
