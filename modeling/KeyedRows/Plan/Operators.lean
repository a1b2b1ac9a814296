/-
# Operators

What a predicate does to a plan is the rule of its operator. A rule may put
another predicate in the place of the one it was given, which is then looked up
in turn: a comparison with one bound becomes a range. It may also look up symbols
and ask their rules, as often as it likes, and go on with what they answer. Rules
that ask each other in a circle never come to an answer, so a predicate is
classified by a partial function. Rules are registered under symbols in any letter
case; the latest counts.

Key definitions: `Step`, `Rule`, `Operators`, `register`, `find`, `follow`,
`classify?`, `classify`, `QueryPlan.ofPredicates`.
-/
import KeyedRows.Plan.Basic
import KeyedRows.Plan.Predicate

namespace KeyedRows

/-- What a rule makes of a predicate. -/
inductive Step where
  | planned (plan : QueryPlan)
  /-- Another predicate stands for it, on the plan that the rule was given. -/
  | replaced (predicate : Predicate)
  /-- The rule looks a symbol up and goes on, knowing whether it has a rule. -/
  | knows (symbol : String) (next : Bool → Except Error Step)
  /-- The rule asks that of a symbol and goes on with its answer. -/
  | asked (symbol : String) (plan : QueryPlan) (predicate : Predicate)
      (next : Except Error QueryPlan → Except Error Step)

/-- A rule is given the name of the key column, the plan so far and the
predicate. -/
abbrev Rule := String → QueryPlan → Predicate → Except Error Step

namespace Rule

/-- On the key column a look-up of the key; otherwise a filter for the text
or the number. -/
def equal : Rule := fun keyColumn plan p => do
  let v ← p.operand 0
  if p.column = keyColumn then
    return .planned (plan.withPoint (plan.key (← UserKey.ofValue p.column v)))
  match v with
  | .text s => return .planned (plan.withFilter (.equals p.column (.text s)))
  | v =>
    match v.truncated? with
    | some n => return .planned (plan.withFilter (.equals p.column (.int n)))
    | none => throw (.invalidValue p.column v)

/-- The range from the operand on. -/
def greater : Rule := fun _ _ p => do
  return .replaced (.between p.column (← p.operand 0) (.int64 Int64.maxValue))

/-- The range up to the operand. -/
def less : Rule := fun _ _ p => do
  return .replaced (.between p.column (.int64 Int64.minValue) (← p.operand 0))

/-- A filter for the range, ends included. -/
def between : Rule := fun _ plan p => do
  let low ← p.integer 0
  let high ← p.integer 1
  return .planned (plan.withFilter (.within p.column low high))

end Rule

/-- The rules by upper-case symbol, the latest first. -/
structure Operators where
  keyColumn : String
  rules : List (String × Rule)

namespace Operators

/-- The rule counts for the symbol from now on. -/
def register (os : Operators) (symbol : String) (rule : Rule) : Operators :=
  { os with rules := (symbol.toUpper, rule) :: os.rules }

/-- The built-in operators. -/
def builtIn (keyColumn : String) : Operators :=
  ((((Operators.mk keyColumn []).register Operator.equal.symbol Rule.equal).register
    Operator.greater.symbol Rule.greater).register Operator.less.symbol Rule.less).register
    Operator.between.symbol Rule.between

/-- The rule of a symbol. -/
def find (os : Operators) (symbol : String) : Except Error Rule :=
  match os.rules.lookup symbol.toUpper with
  | some rule => .ok rule
  | none => .error (.unknownOperator symbol)

/-- What the rule of a symbol makes of a predicate on a plan. -/
def step (os : Operators) (symbol : String) (plan : QueryPlan) (p : Predicate) :
    Except Error Step := do (← os.find symbol) os.keyColumn plan p

/-- What a rule that was given the plan comes to from here; nothing if the rules ask
each other in a circle. -/
def follow (os : Operators) (plan : QueryPlan) :
    Except Error Step → Option (Except Error QueryPlan)
  | .error e => some (.error e)
  | .ok (.planned plan) => some (.ok plan)
  | .ok (.replaced p) => os |>.follow plan (os.step p.operator plan p)
  | .ok (.knows symbol next) => os |>.follow plan (next (os.find symbol).isOk)
  | .ok (.asked symbol plan' p next) => do
    let answer ← os |>.follow plan' (os.step symbol plan' p)
    os |>.follow plan (next answer)
partial_fixpoint

/-- The plan after a predicate, unless the rules ask each other in a circle. -/
def classify? (os : Operators) (plan : QueryPlan) (p : Predicate) :
    Option (Except Error QueryPlan) :=
  os.follow plan (os.step p.operator plan p)

/-- The plan after a predicate. A circle of rules has no answer, and any may stand
for it. -/
def classify (os : Operators) (plan : QueryPlan) (p : Predicate) : Except Error QueryPlan :=
  (os.classify? plan p).getD default

section

variable {os : Operators} {plan : QueryPlan} {p : Predicate}

@[simp]
theorem follow_error (e : Error) : os.follow plan (.error e) = some (.error e) := by
  rw [follow]

@[simp]
theorem follow_planned (q : QueryPlan) : os.follow plan (.ok (.planned q)) = some (.ok q) := by
  rw [follow]

@[simp]
theorem follow_replaced (p : Predicate) :
    os.follow plan (.ok (.replaced p)) = os.classify? plan p := by
  rw [follow, classify?]

/-- The rule of its operator decides what becomes of a predicate. -/
theorem classify?_of_find {rule : Rule} (h : os.find p.operator = .ok rule) :
    os.classify? plan p = os.follow plan (rule os.keyColumn plan p) := by
  rw [classify?, step, h]
  rfl

theorem classify?_of_find_error {e : Error} (h : os.find p.operator = .error e) :
    os.classify? plan p = some (.error e) := by
  rw [classify?, step, h]
  exact follow_error e

/-- Putting a predicate in the place of another is asking its operator and giving
the answer on. -/
theorem follow_asked (p : Predicate) :
    os.follow plan (.ok (.asked p.operator plan p (·.map .planned))) =
      os.follow plan (.ok (.replaced p)) := by
  rw [follow_replaced, follow, ← classify?]
  rcases os.classify? plan p with _ | (e | q)
  · rfl
  · exact follow_error e
  · exact follow_planned q

theorem classify_of_classify? {r : Except Error QueryPlan} (h : os.classify? plan p = some r) :
    os.classify plan p = r := by
  rw [classify, h, Option.getD_some]

end

end Operators

/-- The plan of all predicates, or the error of the first that has none. -/
def QueryPlan.ofPredicates (os : Operators) (space : String) (setName : Option String)
    (predicates : List Predicate) : Except Error QueryPlan :=
  predicates.foldlM os.classify (QueryPlan.start space setName)

end KeyedRows
