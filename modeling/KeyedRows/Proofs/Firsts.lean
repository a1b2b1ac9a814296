/-
# The first of each kind

A list without repetitions keeps the first element of each kind, where elements
are of one kind if they have the same key. Everything is the same as exactly one
element that is kept (`existsUnique_mem_eraseDupsBy`), which stands before all
others of its kind (`first_of_mem_eraseDupsBy`), so the sizes of the kinds add up
to the number of all elements (`sum_countP_eraseDupsBy`). Where only equal
elements are of one kind, it does not matter whether repetitions are left out
before or after elements are chosen (`eraseDups_filter`).

Key theorems: **`existsUnique_mem_eraseDupsBy`**, **`sum_countP_eraseDupsBy`**.
-/
import Mathlib

namespace KeyedRows

section

variable {α κ : Type} {same : α → α → Bool} {key : α → κ}

/-- Induction along the removal of what is the same as the first element. -/
theorem eraseDupsBy_induction (same : α → α → Bool) {P : List α → Prop} (nil : P [])
    (cons : ∀ a l, P (l.filter fun b => same b a = false) → P (a :: l)) : ∀ l, P l
  | [] => nil
  | a :: l => cons a l (eraseDupsBy_induction same nil cons _)
termination_by l => l.length
decreasing_by exact Nat.lt_succ_of_le (List.length_filter_le ..)

theorem eraseDupsBy_sublist (l : List α) : (l.eraseDupsBy same).Sublist l := by
  induction l using eraseDupsBy_induction same with
  | nil => simp
  | cons a l ih =>
    rw [List.eraseDupsBy_cons]
    exact (ih.trans List.filter_sublist).cons_cons a

variable (hsame : ∀ a b, same a b = true ↔ key a = key b)

include hsame

theorem same_eq_false_iff {a b : α} : same a b = false ↔ key a ≠ key b := by
  rw [Bool.eq_false_iff, ne_eq, hsame]

/-- No two that are left are the same. -/
theorem nodup_map_eraseDupsBy (l : List α) : ((l.eraseDupsBy same).map key).Nodup := by
  induction l using eraseDupsBy_induction same with
  | nil => simp
  | cons a l ih =>
    rw [List.eraseDupsBy_cons, List.map_cons, List.nodup_cons]
    refine ⟨fun ha => ?_, ih⟩
    obtain ⟨b, hb, hba⟩ := List.mem_map.mp ha
    have hdiffer : same b a = false := by
      simpa using (List.mem_filter.mp ((eraseDupsBy_sublist _).subset hb)).2
    exact (same_eq_false_iff hsame).mp hdiffer hba

/-- What is left stands before everything else that is the same. -/
theorem first_of_mem_eraseDupsBy {l : List α} {b : α} (h : b ∈ l.eraseDupsBy same) :
    ∃ before rest, l = before ++ b :: rest ∧ ∀ a ∈ before, same a b = false := by
  induction l using eraseDupsBy_induction same with
  | nil => simp at h
  | cons a l ih =>
    rw [List.eraseDupsBy_cons, List.mem_cons] at h
    rcases h with rfl | h
    · exact ⟨[], l, rfl, nofun⟩
    · have hba : key b ≠ key a := (same_eq_false_iff hsame).mp <| by
        simpa using (List.mem_filter.mp ((eraseDupsBy_sublist _).subset h)).2
      obtain ⟨before, rest, hl, hbefore⟩ := ih h
      obtain ⟨front, back, rfl, rfl, hback⟩ := List.filter_eq_append_iff.mp hl
      obtain ⟨skipped, rest', rfl, hskipped, -, -⟩ := List.filter_eq_cons_iff.mp hback
      refine ⟨a :: front ++ skipped, rest', by simp, fun c hc => ?_⟩
      -- what was removed with `a` is as different from `b` as `a` is
      by_cases hca : key c = key a
      · exact (same_eq_false_iff hsame).mpr (hca ▸ hba.symm)
      · have hkept : same c a = false := (same_eq_false_iff hsame).mpr hca
        simp only [List.cons_append, List.mem_cons, List.mem_append] at hc
        rcases hc with rfl | hc | hc
        · exact absurd rfl hca
        · exact hbefore c (List.mem_filter.mpr ⟨hc, by simpa using hkept⟩)
        · exact absurd (by simpa using hkept) (hskipped c hc)

/-- Everything is the same as exactly one of what is left. -/
theorem existsUnique_mem_eraseDupsBy {l : List α} {a : α} (ha : a ∈ l) :
    ∃! b, b ∈ l.eraseDupsBy same ∧ same b a = true := by
  have hsome : ∃ b ∈ l.eraseDupsBy same, same b a = true := by
    induction l using eraseDupsBy_induction same with
    | nil => simp at ha
    | cons c l ih =>
      rw [List.eraseDupsBy_cons]
      by_cases hac : key a = key c
      · exact ⟨c, List.mem_cons_self, (hsame c a).mpr hac.symm⟩
      · have hne : a ≠ c := fun he => hac (congrArg key he)
        have hkept : same a c = false := (same_eq_false_iff hsame).mpr hac
        obtain ⟨b, hb, hba⟩ := ih (List.mem_filter.mpr
          ⟨(List.mem_cons.mp ha).resolve_left hne, by simpa using hkept⟩)
        exact ⟨b, List.mem_cons_of_mem c hb, hba⟩
  obtain ⟨b, hb, hba⟩ := hsome
  refine ⟨b, ⟨hb, hba⟩, fun c ⟨hc, hca⟩ => ?_⟩
  have hkeys : key c = key b := ((hsame c a).mp hca).trans ((hsame b a).mp hba).symm
  exact List.inj_on_of_nodup_map (nodup_map_eraseDupsBy hsame l) hc hb hkeys

/-- Leaving out what is the same as `a` changes no count of what is not. -/
theorem countP_cons_of_not_same {a b : α} (hb : same b a = false) (l : List α) :
    (a :: l).countP (same b) = (l.filter fun c => same c a = false).countP (same b) := by
  rw [List.countP_cons_of_neg (by simp [hb]), List.countP_filter]
  refine List.countP_congr fun c _ => ?_
  rw [Bool.and_eq_true, decide_eq_true_eq, hsame, same_eq_false_iff hsame]
  rw [same_eq_false_iff hsame] at hb
  exact ⟨fun hbc => ⟨hbc, hbc ▸ hb⟩, And.left⟩

/-- The counts of what is the same add up to the number of all. -/
theorem sum_countP_eraseDupsBy (l : List α) :
    ((l.eraseDupsBy same).map fun a => l.countP (same a)).sum = l.length := by
  induction l using eraseDupsBy_induction same with
  | nil => simp
  | cons a l ih =>
    have hrest : ((l.filter fun b => same b a = false).eraseDupsBy same).map
        (fun b => (a :: l).countP (same b)) =
      ((l.filter fun b => same b a = false).eraseDupsBy same).map
        fun b => (l.filter fun c => same c a = false).countP (same b) := by
      refine List.map_congr_left fun b hb => countP_cons_of_not_same hsame ?_ l
      simpa using (List.mem_filter.mp ((eraseDupsBy_sublist _).subset hb)).2
    have hself : same a a = true := (hsame a a).mpr rfl
    have hsplit : l.countP (same a) + (l.filter fun b => same b a = false).length = l.length := by
      rw [List.length_eq_countP_add_countP (same a) (l := l), ← List.countP_eq_length_filter]
      refine congrArg _ (List.countP_congr fun b _ => ?_)
      rw [decide_eq_true_eq, same_eq_false_iff hsame, decide_eq_true_eq, hsame]
      exact ne_comm
    rw [List.eraseDupsBy_cons, List.map_cons, List.sum_cons, hrest, ih,
      List.countP_cons_of_pos hself, List.length_cons]
    omega

end

section

variable {α : Type} [BEq α] [LawfulBEq α]

theorem nodup_eraseDups (l : List α) : l.eraseDups.Nodup := by
  have hsame : ∀ a b : α, (a == b) = true ↔ id a = id b := fun _ _ => beq_iff_eq
  have hnodup := nodup_map_eraseDupsBy hsame l
  rwa [List.map_id] at hnodup

/-- Choosing among elements and leaving out repetitions may be done in any order. -/
theorem eraseDups_filter (p : α → Bool) : ∀ l : List α,
    (l.filter p).eraseDups = l.eraseDups.filter p
  | [] => by simp
  | a :: l => by
    have ih := eraseDups_filter p (l.filter fun b => !b == a)
    rw [List.filter_filter] at ih
    rw [List.eraseDups_cons]
    cases hp : p a with
    | true =>
      rw [List.filter_cons_of_pos hp, List.filter_cons_of_pos hp, List.eraseDups_cons,
        List.filter_filter, ← ih]
      simp only [Bool.and_comm]
    | false =>
      have hout : l.filter p = l.filter fun b => p b && !b == a :=
        List.filter_congr fun b _ => by
          by_cases h : b = a
          · simp [h, hp]
          · simp [h]
      rw [List.filter_cons_of_neg (by simp [hp]), List.filter_cons_of_neg (by simp [hp]), hout, ih]
termination_by l => l.length
decreasing_by exact Nat.lt_succ_of_le (List.length_filter_le ..)

end

end KeyedRows
