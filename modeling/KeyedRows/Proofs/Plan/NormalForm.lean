/-
# The normal form of a plan

A plan is built from filters and keys in any order, and what it comes to does not
depend on how they were mixed: it looks up the last key, else pushes the first
filter, else scans, and of the filters none is lost, doubled or pushed twice
(`planned_conditions`). A scan therefore has no filter left behind
(`Planned.residual_of_fullScan`).

The built-in rules read no plan to decide whether a predicate can be planned
(`rule_alike`), so a predicate fails on every plan with one error or on none
(`classify_alike`), and predicates are planned together exactly if each can be
planned alone.

Key definitions: `verdict`, `FirstFailure`.
Key theorem: **`plan_normal_form`**.
-/
import KeyedRows.Proofs.Plan.Conditions

namespace KeyedRows

namespace QueryPlan

/-- A scan leaves no filter behind. -/
theorem Planned.residual_of_fullScan {p : QueryPlan} {cs : List Condition} (h : p.Planned cs)
    (hscan : p.access = .fullScan) : p.residual = [] := by
  have hnone : filtersOf cs = [] := by
    have haccess := h.access
    rw [hscan] at haccess
    cases hkey : lastKey cs with
    | some key => simp [hkey] at haccess
    | none =>
      cases hfs : filtersOf cs with
      | nil => rfl
      | cons f fs => simp [hkey, hfs] at haccess
  have hempty : p.pushed?.toList ++ p.residual = [] := by
    apply List.Perm.eq_nil
    rw [← hnone]
    exact h.filters
  exact (List.append_eq_nil_iff.mp hempty).2

end QueryPlan

/-! ### First failures -/

section

variable {α β ε : Type}

/-- Whether there is a result, or the error why not. -/
def verdict (x : Except ε β) : Except ε Unit := x.map fun _ => ()

/-- The first of these on which a function fails, fails with this error. -/
def FirstFailure (f : α → Except ε β) (l : List α) (e : ε) : Prop :=
  ∃ before a rest, l = before ++ a :: rest ∧ (∀ x ∈ before, ∃ b, f x = .ok b) ∧ f a = .error e

theorem firstFailure_cons_of_ok {f : α → Except ε β} {a : α} {l : List α} {e : ε} {b : β}
    (h : f a = .ok b) : FirstFailure f (a :: l) e ↔ FirstFailure f l e := by
  constructor
  · rintro ⟨before, x, rest, hl, hbefore, hx⟩
    cases before with
    | nil =>
      obtain ⟨rfl, rfl⟩ := List.cons.inj hl
      rw [h] at hx
      cases hx
    | cons y before =>
      obtain ⟨rfl, rfl⟩ := List.cons.inj hl
      exact ⟨before, x, rest, rfl, fun z hz => hbefore z (List.mem_cons_of_mem _ hz), hx⟩
  · rintro ⟨before, x, rest, rfl, hbefore, hx⟩
    refine ⟨a :: before, x, rest, rfl, fun z hz => ?_, hx⟩
    rcases List.mem_cons.mp hz with rfl | hz
    · exact ⟨b, h⟩
    · exact hbefore z hz

theorem firstFailure_cons_of_error {f : α → Except ε β} {a : α} {l : List α} {e e' : ε}
    (h : f a = .error e') : FirstFailure f (a :: l) e ↔ e' = e := by
  constructor
  · rintro ⟨before, x, rest, hl, hbefore, hx⟩
    cases before with
    | nil =>
      obtain ⟨rfl, rfl⟩ := List.cons.inj hl
      rw [h] at hx
      exact Except.error.inj hx
    | cons y before =>
      obtain ⟨rfl, rfl⟩ := List.cons.inj hl
      obtain ⟨b, hb⟩ := hbefore a List.mem_cons_self
      rw [h] at hb
      cases hb
  · rintro rfl
    exact ⟨[], a, l, rfl, nofun, h⟩

/-- Some of these fails first unless none fails. -/
theorem exists_firstFailure_iff (f : α → Except ε β) : ∀ l : List α,
    (∃ e, FirstFailure f l e) ↔ ∃ a ∈ l, ∃ e, f a = .error e
  | [] => by
    constructor
    · rintro ⟨e, before, a, rest, hl, -⟩
      simp at hl
    · rintro ⟨a, ha, -⟩
      cases ha
  | a :: l => by
    cases h : f a with
    | ok b =>
      simp only [firstFailure_cons_of_ok h, exists_firstFailure_iff f l, List.mem_cons,
        exists_eq_or_imp, h, reduceCtorEq, exists_false, false_or]
    | error e' =>
      simp only [firstFailure_cons_of_error h, exists_eq', true_iff]
      exact ⟨a, List.mem_cons_self, e', h⟩

variable {f : β → α → Except ε β}

/-- A fold whose steps fail alike from wherever they start fails as the first of
them does on its own. -/
theorem foldlM_eq_error_iff (halike : ∀ a b c, verdict (f b a) = verdict (f c a)) (start : β)
    (e : ε) : ∀ (l : List α) (b : β), l.foldlM f b = .error e ↔ FirstFailure (f start) l e
  | [], b => by
    constructor
    · intro h
      cases h
    · rintro ⟨before, a, rest, hl, -⟩
      simp at hl
  | a :: l, b => by
    have hverdict := halike a b start
    rw [List.foldlM_cons]
    cases hb : f b a with
    | ok c =>
      cases hs : f start a with
      | error e' => simp [hb, hs, verdict, Except.map] at hverdict
      | ok c' =>
        rw [firstFailure_cons_of_ok hs]
        exact foldlM_eq_error_iff halike start e l c
    | error e' =>
      cases hs : f start a with
      | ok c' => simp [hb, hs, verdict, Except.map] at hverdict
      | error e'' =>
        have he : e' = e'' := by simpa [hb, hs, verdict, Except.map] using hverdict
        rw [firstFailure_cons_of_error hs, ← he]
        exact ⟨Except.error.inj, congrArg Except.error⟩

end

/-! ### Predicates alone and together -/

namespace Operators

/-- A range fails on every plan with one error, or on none. -/
theorem classify_between_alike (keyColumn : String) {p : Predicate} (plan plan' : QueryPlan)
    (h : Operator.ofSymbol? p.operator = some .between) :
    verdict ((builtIn keyColumn).classify plan p) =
      verdict ((builtIn keyColumn).classify plan' p) := by
  simp only [classify, classify?_of_symbol h]
  rcases rule_alike .between keyColumn p plan plan' with
    ⟨e, hr, hr'⟩ | ⟨q, q', hr, hr'⟩ | ⟨hne, -⟩
  · rw [hr, hr', follow_error, follow_error]
  · rw [hr, hr', follow_planned, follow_planned]
    rfl
  · exact absurd rfl hne

/-- **A predicate fails on every plan with one error, or on none.** -/
theorem classify_alike (keyColumn : String) (p : Predicate) (plan plan' : QueryPlan) :
    verdict ((builtIn keyColumn).classify plan p) =
      verdict ((builtIn keyColumn).classify plan' p) := by
  cases ho : Operator.ofSymbol? p.operator with
  | none =>
    have hfind : (builtIn keyColumn).find p.operator = .error (.unknownOperator p.operator) := by
      rw [find_builtIn, ho]
    simp only [classify, classify?_of_find_error hfind]
  | some o =>
    rcases rule_alike o keyColumn p plan plan' with
      ⟨e, hr, hr'⟩ | ⟨q, q', hr, hr'⟩ | ⟨-, low, high, hr, hr'⟩ <;>
      simp only [classify, classify?_of_symbol ho, hr, hr', follow_error, follow_planned,
        follow_replaced]
    · rfl
    · exact classify_between_alike keyColumn plan plan' (Operator.ofSymbol?_symbol .between)

end Operators

/-- Predicates fail together as the first of them does alone. -/
theorem ofPredicates_eq_error_iff (keyColumn space : String) (setName : Option String)
    (predicates : List Predicate) (e : Error) :
    QueryPlan.ofPredicates (.builtIn keyColumn) space setName predicates = .error e ↔
      FirstFailure ((Operators.builtIn keyColumn).classify (.start space setName)) predicates e :=
  foldlM_eq_error_iff (Operators.classify_alike keyColumn) _ e predicates _

/-- Predicates can be planned together exactly if each can be planned alone. -/
theorem ofPredicates_eq_ok_iff (keyColumn space : String) (setName : Option String)
    (predicates : List Predicate) :
    (∃ plan, QueryPlan.ofPredicates (.builtIn keyColumn) space setName predicates = .ok plan) ↔
      ∀ p ∈ predicates, ∃ plan,
        (Operators.builtIn keyColumn).classify (.start space setName) p = .ok plan := by
  have hfails {β : Type} (x : Except Error β) : (∃ b, x = .ok b) ↔ ¬ ∃ e, x = .error e := by
    cases x <;> simp
  simp only [hfails, ofPredicates_eq_error_iff, exists_firstFailure_iff]
  push Not
  rfl

/-- **The normal form of a plan.** Filters and keys in any order make a plan that
looks up the last key, else pushes the first filter, else scans; the filter that
it pushes and those that stay behind are the filters that it was given, each as
often as it was given, and a scan has none. Predicates are planned exactly if each
of them can be planned on its own, and otherwise fail as the first does that
cannot. -/
theorem plan_normal_form (keyColumn space : String) (setName : Option String) :
    (∀ conditions : List Condition,
      let plan := conditions.foldl QueryPlan.withCondition (.start space setName)
      plan.Planned conditions ∧ (plan.access = .fullScan → plan.residual = [])) ∧
    ∀ predicates : List Predicate,
      let alone := (Operators.builtIn keyColumn).classify (.start space setName)
      let together := QueryPlan.ofPredicates (.builtIn keyColumn) space setName predicates
      ((∃ plan, together = .ok plan) ↔ ∀ p ∈ predicates, ∃ plan, alone p = .ok plan) ∧
        ∀ e, together = .error e ↔ FirstFailure alone predicates e := by
  refine ⟨fun conditions => ?_, fun predicates => ⟨?_, fun e => ?_⟩⟩
  · have hplanned := QueryPlan.planned_conditions space setName conditions
    exact ⟨hplanned, hplanned.residual_of_fullScan⟩
  · exact ofPredicates_eq_ok_iff keyColumn space setName predicates
  · exact ofPredicates_eq_error_iff keyColumn space setName predicates e

/-- A filter that a key drives out of the store stands behind those that stayed
behind before it. -/
example (key : Key) (f g : Filter) :
    [.filter f, .filter g, .key key].foldl QueryPlan.withCondition (.start "test" "t") =
      { space := "test", setName := "t", access := .point key, residual := [g, f] } := rfl

end KeyedRows
