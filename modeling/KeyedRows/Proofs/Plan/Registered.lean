/-
# Registered operators

A symbol has the rule that was registered last under it, whatever the case of
its letters, and the built-in rules count as registered before all others
(`find_registered`). A built-in rule fails, plans, or puts a range in the place of
its predicate (`rule_alike`), so it comes to no rule but itself and that of the
range. Operators registered under other symbols therefore leave the built-in ones
as they are, whatever the plan and the operands, and whatever the registered rules
ask for.

Key definitions: `SameButCase`, `LatestUnder`, `Operators.registerAll`,
`Operators.HasBuiltIn`. Key theorem: **`operators_registered_beside`**.
-/
import Mathlib
import KeyedRows.Proofs.Plan.Conditions

namespace KeyedRows

/-! ### Letter case -/

namespace Text

/-- The same character, or the capital and the small form of a letter from A to
Z, which are 32 places apart. -/
def SameLetter (c d : Char) : Prop :=
  c = d ∨ (c.isUpper ∧ d.toNat = c.toNat + 32) ∨ (d.isUpper ∧ c.toNat = d.toNat + 32)
deriving Decidable

/-- The same text but for the case of the letters from A to Z. -/
def SameButCase (s t : String) : Prop := List.Forall₂ SameLetter s.toList t.toList
deriving Decidable

theorem isUpper_iff (c : Char) : c.isUpper = true ↔ 65 ≤ c.toNat ∧ c.toNat ≤ 90 := by
  simp [Char.isUpper, UInt32.le_iff_toNat_le]

theorem toNat_toUpper (c : Char) :
    c.toUpper.toNat = if 97 ≤ c.toNat ∧ c.toNat ≤ 122 then c.toNat - 32 else c.toNat := by
  have hsmall : ('a'.val ≤ c.val ∧ c.val ≤ 'z'.val) ↔ 97 ≤ c.toNat ∧ c.toNat ≤ 122 := by
    simp [UInt32.le_iff_toNat_le]
  unfold Char.toUpper
  by_cases h : 'a'.val ≤ c.val ∧ c.val ≤ 'z'.val
  · rw [dif_pos h, if_pos (hsmall.mp h)]
    have hbounds := hsmall.mp h
    -- the capital is reached by adding, modulo `2 ^ 32`
    have hstep : ('A'.val - 'a'.val).toNat = 2 ^ 32 - 32 := by decide
    have hval : c.val.toNat = c.toNat := rfl
    show (c.val + ('A'.val - 'a'.val)).toNat = c.toNat - 32
    rw [UInt32.toNat_add, hstep]
    omega
  · rw [dif_neg h, if_neg fun hbounds => h (hsmall.mpr hbounds)]

theorem char_toUpper_eq_iff (c d : Char) : c.toUpper = d.toUpper ↔ SameLetter c d := by
  rw [← Char.toNat_inj, toNat_toUpper, toNat_toUpper, SameLetter, isUpper_iff, isUpper_iff,
    ← Char.toNat_inj]
  split_ifs <;> omega

/-- Two texts are the same in capitals exactly if they are the same but for
case. -/
theorem toUpper_eq_iff (s t : String) : s.toUpper = t.toUpper ↔ SameButCase s t := by
  rw [← String.toList_inj, String.toUpper, String.toUpper, String.toList_map, String.toList_map,
    ← List.forall₂_eq_eq_eq, List.forall₂_map_left_iff, List.forall₂_map_right_iff]
  simp only [char_toUpper_eq_iff]
  rfl

end Text

open Text (SameButCase)

/-! ### Look-ups -/

section

variable {registrations : List (String × Rule)} {symbol : String} {rule : Rule}

/-- The rule is the last one of these under the symbol, in any letter case. -/
def LatestUnder (registrations : List (String × Rule)) (symbol : String) (rule : Rule) : Prop :=
  ∃ before name after, registrations = before ++ (name, rule) :: after ∧
    SameButCase name symbol ∧ ∀ r ∈ after, ¬ SameButCase r.1 symbol

/-- The last registration counts if it is under the symbol, else those before. -/
theorem latestUnder_append_singleton (last : String × Rule) :
    LatestUnder (registrations ++ [last]) symbol rule ↔
      (SameButCase last.1 symbol ∧ last.2 = rule) ∨
        (¬ SameButCase last.1 symbol ∧ LatestUnder registrations symbol rule) := by
  constructor
  · rintro ⟨before, name, after, hsplit, hname, hafter⟩
    rcases List.eq_nil_or_concat after with rfl | ⟨after, r, rfl⟩
    · obtain ⟨-, hlast⟩ := List.append_inj' hsplit rfl
      obtain rfl : last = (name, rule) := List.singleton_inj.mp hlast
      exact .inl ⟨hname, rfl⟩
    · rw [List.concat_eq_append, ← List.cons_append, ← List.append_assoc] at hsplit
      obtain ⟨hfront, hlast⟩ := List.append_inj' hsplit rfl
      obtain rfl : last = r := List.singleton_inj.mp hlast
      simp only [List.concat_eq_append, List.mem_append, List.mem_singleton] at hafter
      exact .inr ⟨hafter last (.inr rfl),
        before, name, after, hfront, hname, fun r hr => hafter r (.inl hr)⟩
  · rintro (⟨hname, rfl⟩ | ⟨hlast, before, name, after, rfl, hname, hafter⟩)
    · exact ⟨registrations, last.1, [], rfl, hname, nofun⟩
    · refine ⟨before, name, after ++ [last], by simp, hname, fun r hr => ?_⟩
      rcases List.mem_append.mp hr with hr | hr
      · exact hafter r hr
      · exact List.mem_singleton.mp hr ▸ hlast

namespace Operators

/-- The operators after these registrations. -/
def registerAll (os : Operators) (registrations : List (String × Rule)) : Operators :=
  registrations.foldl (fun os r => os.register r.1 r.2) os

/-- The built-in rules in the order of their registration. -/
def builtInRules : List (String × Rule) :=
  [Operator.equal, .greater, .less, .between].map fun o => (o.symbol, o.rule)

theorem registerAll_append_singleton (os : Operators) (last : String × Rule) :
    os.registerAll (registrations ++ [last]) =
      (os.registerAll registrations).register last.1 last.2 := by
  simp only [registerAll, List.foldl_append, List.foldl_cons, List.foldl_nil]

/-- The built-in operators are those of the built-in rules. -/
theorem builtIn_registerAll (keyColumn : String) :
    (builtIn keyColumn).registerAll registrations =
      (mk keyColumn []).registerAll (builtInRules ++ registrations) := by
  rw [registerAll, registerAll, List.foldl_append]
  rfl

/-- Registrations leave the key column as it is. -/
theorem keyColumn_registerAll (os : Operators) (registrations : List (String × Rule)) :
    (os.registerAll registrations).keyColumn = os.keyColumn := by
  induction registrations using List.reverseRecOn with
  | nil => rfl
  | append_singleton registrations last ih =>
    rw [registerAll_append_singleton]
    exact ih

/-- After a registration its symbol has its rule, and every other symbol the rule
that it had. -/
theorem find_register (os : Operators) (name symbol : String) (rule : Rule) :
    (os.register name rule).find symbol =
      if SameButCase name symbol then .ok rule else os.find symbol := by
  rw [find, register, List.lookup_cons]
  by_cases h : SameButCase name symbol
  · rw [if_pos h, (Text.toUpper_eq_iff name symbol).mpr h, beq_self_eq_true]
  · have hne : (symbol.toUpper == name.toUpper) = false :=
      beq_eq_false_iff_ne.mpr fun he => h ((Text.toUpper_eq_iff name symbol).mp he.symm)
    rw [if_neg h, hne]
    rfl

/-- Registrations under other symbols leave a symbol as it is. -/
theorem find_registerAll_of_apart (os : Operators)
    (h : ∀ r ∈ registrations, ¬ SameButCase r.1 symbol) :
    (os.registerAll registrations).find symbol = os.find symbol := by
  induction registrations using List.reverseRecOn with
  | nil => rfl
  | append_singleton registrations last ih =>
    simp only [List.mem_append, List.mem_singleton] at h
    rw [registerAll_append_singleton, find_register, if_neg (h last (.inr rfl)),
      ih fun r hr => h r (.inl hr)]

/-- **A symbol has the rule that was registered last under it**, in any letter
case, and without such a rule it is named as unknown. -/
theorem find_registered (keyColumn : String) (registrations : List (String × Rule))
    (symbol : String) :
    (∀ rule, ((mk keyColumn []).registerAll registrations).find symbol = .ok rule ↔
      LatestUnder registrations symbol rule) ∧
    ∀ e, ((mk keyColumn []).registerAll registrations).find symbol = .error e ↔
      e = .unknownOperator symbol ∧ ∀ r ∈ registrations, ¬ SameButCase r.1 symbol := by
  induction registrations using List.reverseRecOn with
  | nil =>
    have hnone : ((mk keyColumn []).registerAll []).find symbol =
      .error (.unknownOperator symbol) := rfl
    refine ⟨fun rule => ?_, fun e => ?_⟩
    · rw [hnone]
      refine ⟨nofun, ?_⟩
      rintro ⟨before, name, after, hsplit, -⟩
      simp at hsplit
    · rw [hnone, Except.error.injEq, eq_comm]
      exact (and_iff_left nofun).symm
  | append_singleton registrations last ih =>
    simp only [registerAll_append_singleton, find_register, latestUnder_append_singleton]
    by_cases h : SameButCase last.1 symbol
    · refine ⟨fun rule => ?_, fun e => ?_⟩
      · simp only [h, if_true, not_true, false_and, or_false, true_and, Except.ok.injEq]
      · rw [if_pos h]
        exact ⟨nofun, fun hall => absurd h (hall.2 last (by simp))⟩
    · refine ⟨fun rule => ?_, fun e => ?_⟩
      · simp only [h, if_false, false_and, false_or, not_false_eq_true, true_and, ih.1]
      · rw [if_neg h, ih.2]
        refine and_congr_right fun _ => ⟨fun hall r hr => ?_, fun hall r hr => ?_⟩
        · rcases List.mem_append.mp hr with hr | hr
          · exact hall r hr
          · exact List.mem_singleton.mp hr ▸ h
        · exact hall r (List.mem_append.mpr (.inl hr))

end Operators

end

/-! ### The built-in operators among others -/

theorem Operator.ofSymbol?_of_sameButCase {symbol : String} {o : Operator}
    (h : SameButCase symbol o.symbol) : Operator.ofSymbol? symbol = some o := by
  rw [← o.ofSymbol?_symbol, ofSymbol?, ofSymbol?, (Text.toUpper_eq_iff _ _).mpr h]

namespace Operators

variable {os os' : Operators} {keyColumn : String} {plan : QueryPlan} {p : Predicate}

/-- The built-in rules stand under their symbols. -/
structure HasBuiltIn (os : Operators) (keyColumn : String) : Prop where
  keyColumn : os.keyColumn = keyColumn
  find : ∀ (o : Operator) (symbol : String), SameButCase symbol o.symbol →
    os.find symbol = .ok o.rule

theorem hasBuiltIn_builtIn (keyColumn : String) : (builtIn keyColumn).HasBuiltIn keyColumn where
  keyColumn := rfl
  find o symbol h := by rw [find_builtIn, Operator.ofSymbol?_of_sameButCase h]

theorem HasBuiltIn.registerAll (h : os.HasBuiltIn keyColumn) {registrations : List (String × Rule)}
    (hapart : ∀ r ∈ registrations, ∀ o : Operator, ¬ SameButCase r.1 o.symbol) :
    (os.registerAll registrations).HasBuiltIn keyColumn where
  keyColumn := (keyColumn_registerAll os registrations).trans h.keyColumn
  find o symbol hsymbol := by
    refine (find_registerAll_of_apart os fun r hr hname => hapart r hr o ?_).trans
      (h.find o symbol hsymbol)
    exact (Text.toUpper_eq_iff _ _).mp
      (((Text.toUpper_eq_iff _ _).mpr hname).trans ((Text.toUpper_eq_iff _ _).mpr hsymbol))

/-- All operators with the built-in rules come to the same answer on a range. -/
theorem HasBuiltIn.classify?_between (h : os.HasBuiltIn keyColumn) (h' : os'.HasBuiltIn keyColumn)
    (hp : SameButCase p.operator Operator.between.symbol) :
    os.classify? plan p = os'.classify? plan p := by
  rw [classify?_of_find (h.find _ _ hp), classify?_of_find (h'.find _ _ hp), h.keyColumn,
    h'.keyColumn]
  rcases rule_alike .between keyColumn p plan plan with ⟨e, he, -⟩ | ⟨q, -, hq, -⟩ | ⟨hne, -⟩
  · rw [he, follow_error, follow_error]
  · rw [hq, follow_planned, follow_planned]
  · exact absurd rfl hne

/-- **All operators with the built-in rules come to the same answer on a built-in
operator.** -/
theorem HasBuiltIn.classify? (h : os.HasBuiltIn keyColumn) (h' : os'.HasBuiltIn keyColumn)
    {o : Operator} (hp : SameButCase p.operator o.symbol) :
    os.classify? plan p = os'.classify? plan p := by
  rw [classify?_of_find (h.find _ _ hp), classify?_of_find (h'.find _ _ hp), h.keyColumn,
    h'.keyColumn]
  rcases rule_alike o keyColumn p plan plan with ⟨e, he, -⟩ | ⟨q, -, hq, -⟩ | ⟨-, low, high, hr, -⟩
  · rw [he, follow_error, follow_error]
  · rw [hq, follow_planned, follow_planned]
  · rw [hr, follow_replaced, follow_replaced]
    exact h.classify?_between h' ((Text.toUpper_eq_iff _ _).mp rfl)

end Operators

open Operators in
/-- **Operators are added beside the built-in ones.** A symbol has the rule that was
registered last under it, in any letter case, the built-in rules being registered
first, and a symbol without a rule is named as unknown just as it was given. And if
no registration is under the symbol of a built-in operator, a predicate with such an
operator comes to the same plan or error as without the registrations. -/
theorem operators_registered_beside (keyColumn : String) (registrations : List (String × Rule)) :
    let os := (builtIn keyColumn).registerAll registrations
    (∀ symbol : String,
      (∀ rule, os.find symbol = .ok rule ↔
        LatestUnder (builtInRules ++ registrations) symbol rule) ∧
      ∀ e, os.find symbol = .error e ↔ e = .unknownOperator symbol ∧
        ∀ r ∈ builtInRules ++ registrations, ¬ SameButCase r.1 symbol) ∧
    ((∀ r ∈ registrations, ∀ o : Operator, ¬ SameButCase r.1 o.symbol) →
      ∀ (plan : QueryPlan) (p : Predicate) (o : Operator), SameButCase p.operator o.symbol →
        (os.classify? plan p).isSome ∧
          os.classify plan p = (builtIn keyColumn).classify plan p) := by
  refine ⟨fun symbol => ?_, fun hapart plan p o hp => ?_⟩
  · simp only [builtIn_registerAll]
    exact find_registered keyColumn (builtInRules ++ registrations) symbol
  · have hbuiltIn := hasBuiltIn_builtIn keyColumn
    have hsame : ((builtIn keyColumn).registerAll registrations).classify? plan p =
        (builtIn keyColumn).classify? plan p := (hbuiltIn.registerAll hapart).classify? hbuiltIn hp
    refine ⟨?_, ?_⟩
    · rw [hsame]
      exact isSome_classify?_builtIn keyColumn plan p
    · rw [classify, classify, hsame]

open Operators in
/-- A range in mixed letter case, beside a rule for the opposite of ranges and one
that puts a range in the place of its predicate. -/
theorem range_beside_registered_rules :
    (∀ r ∈ [("not between", fun _ plan _ => .ok (.planned plan)), (">=", Rule.greater)],
      ∀ o : Operator, ¬ SameButCase r.1 o.symbol) ∧
    SameButCase "Between" Operator.between.symbol ∧
    ((builtIn "PK").registerAll
        [("not between", fun _ plan _ => .ok (.planned plan)), (">=", Rule.greater)]).classify
        (.start "test" "people") ⟨"year", "Between", [.int64 1940, .int64 1950]⟩ =
      .ok { space := "test", setName := "people", access := .pushed (.within "year" 1940 1950) } := by
  have hrange : SameButCase "Between" Operator.between.symbol := by decide +kernel
  have hapart : ∀ r ∈ [("not between", fun _ plan _ => .ok (.planned plan)), (">=", Rule.greater)],
      ∀ o : Operator, ¬ SameButCase r.1 o.symbol := by
    simp only [List.forall_mem_cons]
    refine ⟨fun o => ?_, fun o => ?_, nofun⟩ <;> cases o <;> decide +kernel
  refine ⟨hapart, hrange,
    ((operators_registered_beside "PK" _).2 hapart _ _ .between hrange).2.trans ?_⟩
  refine classify_of_condition (c := .filter (.within "year" 1940 1950)) ?_
  rw [Predicate.condition?, Operator.ofSymbol?_of_sameButCase hrange]
  rfl

end KeyedRows
