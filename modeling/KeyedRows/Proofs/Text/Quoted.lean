/-
# Quoted texts are read back

No escape is the beginning of another, and none begins with the quote. So in
whatever follows a quoted text, it ends where it was written to end, and two
quoted texts that look alike are of the same characters
(`quoted_append_inj`).

Key definition: `meant`.
Key theorem: **`quoted_append_inj`**.
-/
import Mathlib
import KeyedRows.Text.Quoted

namespace KeyedRows.Text

/-- A text is told apart from what follows it, if it has characters of one kind
only and what follows begins with none of this kind. -/
theorem append_stop_inj {P : Char → Prop} {m n : Char} (hm : ¬ P m) (hn : ¬ P n) {x y : List Char} :
    ∀ {p q : List Char}, (∀ c ∈ p, P c) → (∀ c ∈ q, P c) → p ++ m :: x = q ++ n :: y →
      p = q ∧ m :: x = n :: y
  | [], [], _, _, h => ⟨rfl, h⟩
  | [], d :: q, _, hq, h => absurd ((List.cons.inj h).1 ▸ hq d List.mem_cons_self) hm
  | c :: p, [], hp, _, h => absurd ((List.cons.inj h).1 ▸ hp c List.mem_cons_self) hn
  | c :: p, d :: q, hp, hq, h => by
    obtain ⟨rfl, hrest⟩ := List.cons.inj h
    obtain ⟨rfl, hxy⟩ := append_stop_inj hm hn (fun e he => hp e (List.mem_cons_of_mem c he))
      (fun e he => hq e (List.mem_cons_of_mem c he)) hrest
    exact ⟨rfl, hxy⟩

/-- A text up to the first mark is told apart from what comes after the mark. -/
theorem append_mark_inj {mark : Char} {p q x y : List Char} (hp : mark ∉ p) (hq : mark ∉ q)
    (h : p ++ mark :: x = q ++ mark :: y) : p = q ∧ x = y := by
  have hne {t : List Char} (ht : mark ∉ t) : ∀ c ∈ t, c ≠ mark := fun c hc he => ht (he ▸ hc)
  obtain ⟨hpq, hxy⟩ := append_stop_inj (P := (· ≠ mark)) (by simp) (by simp) (hne hp) (hne hq) h
  exact ⟨hpq, List.tail_eq_of_cons_eq hxy⟩

/-! ### Hexadecimal numbers -/

theorem digitChar_inj : ∀ m < 16, ∀ n < 16, m.digitChar = n.digitChar → m = n := by
  decide

/-- A number is read back from its hexadecimal digits. -/
theorem toDigits_sixteen_injective : Function.Injective (Nat.toDigits 16) := by
  intro m
  induction m using Nat.strong_induction_on with
  | _ m ih =>
    intro n h
    rw [Nat.toDigits_eq_if (by decide), Nat.toDigits_eq_if (n := n) (by decide)] at h
    split_ifs at h with hm hn hn
    · exact digitChar_inj m hm n hn (List.singleton_inj.mp h)
    · exact absurd (List.append_eq_singleton_iff.mp h.symm) (by simp [Nat.toDigits_ne_nil])
    · exact absurd (List.append_eq_singleton_iff.mp h) (by simp [Nat.toDigits_ne_nil])
    · obtain ⟨hfront, hlast⟩ := List.append_inj' h rfl
      have hquotient : m / 16 = n / 16 := ih (m / 16) (by omega) hfront
      have hrest : m % 16 = n % 16 :=
        digitChar_inj _ (by omega) _ (by omega) (List.singleton_inj.mp hlast)
      omega

theorem not_mem_toDigits_sixteen {c : Char} (hc : ∀ n : ℕ, n.digitChar ≠ c) (n : ℕ) :
    c ∉ Nat.toDigits 16 n := by
  induction n using Nat.strong_induction_on with
  | _ n ih =>
    rw [Nat.toDigits_eq_if (by decide)]
    split_ifs with hn
    · simpa using (hc n).symm
    · rw [List.mem_append, List.mem_singleton, not_or]
      exact ⟨ih (n / 16) (by omega), (hc (n % 16)).symm⟩

/-! ### Escapes -/

/-- The character that a letter after a backslash stands for. -/
def meant : Char → Char
  | '0' => '\x00'
  | 't' => '\t'
  | 'r' => '\r'
  | 'n' => '\n'
  | c => c

/-- A character stands for itself, or for a letter after a backslash, or is written
by its number. -/
theorem escape_cases (c : Char) :
    (escape c = [c] ∧ c ≠ '\\' ∧ c ≠ '"') ∨
      (∃ m, escape c = ['\\', m] ∧ m ≠ 'u' ∧ meant m = c) ∨
      escape c = '\\' :: 'u' :: '{' :: Nat.toDigits 16 c.toNat ++ ['}'] := by
  unfold escape
  split_ifs with hzero htab hreturn hline hslash hquote halone
  · exact .inr (.inl ⟨'0', rfl, by decide, hzero.symm⟩)
  · exact .inr (.inl ⟨'t', rfl, by decide, htab.symm⟩)
  · exact .inr (.inl ⟨'r', rfl, by decide, hreturn.symm⟩)
  · exact .inr (.inl ⟨'n', rfl, by decide, hline.symm⟩)
  · exact .inr (.inl ⟨'\\', rfl, by decide, hslash.symm⟩)
  · exact .inr (.inl ⟨'"', rfl, by decide, hquote.symm⟩)
  · exact .inl ⟨rfl, hslash, hquote⟩
  · exact .inr (.inr rfl)

/-- No escape begins with the quote. -/
theorem escape_head (c : Char) : ∃ d t, escape c = d :: t ∧ d ≠ '"' := by
  rcases escape_cases c with ⟨h, -, hq⟩ | ⟨m, h, -, -⟩ | h
  · exact ⟨c, [], h, hq⟩
  · exact ⟨'\\', [m], h, by decide⟩
  · exact ⟨'\\', _, h, by decide⟩

/-- **No escape is the beginning of another.** -/
theorem escape_append_inj {c d : Char} {x y : List Char} (h : escape c ++ x = escape d ++ y) :
    c = d ∧ x = y := by
  rcases escape_cases c with ⟨hc, hslash, -⟩ | ⟨m, hc, hm, rfl⟩ | hc <;>
    rcases escape_cases d with ⟨hd, hslash', -⟩ | ⟨m', hd, hm', rfl⟩ | hd <;>
    rw [hc, hd] at h <;>
    simp only [List.cons_append, List.nil_append, List.append_assoc, List.cons.injEq] at h
  · exact h
  · exact absurd h.1 hslash
  · exact absurd h.1 hslash
  · exact absurd h.1.symm hslash'
  · exact ⟨congrArg meant h.2.1, h.2.2⟩
  · exact absurd h.2.1 hm
  · exact absurd h.1.symm hslash'
  · exact absurd h.2.1.symm hm'
  · have hbrace : ∀ n : ℕ, n.digitChar ≠ '}' := fun n => Nat.digitChar_ne '}' (by decide)
    obtain ⟨hdigits, hxy⟩ := append_mark_inj (not_mem_toDigits_sixteen hbrace _)
      (not_mem_toDigits_sixteen hbrace _) h.2.2.2
    exact ⟨Char.toNat_inj.mp (toDigits_sixteen_injective hdigits), hxy⟩

theorem flatMap_escape_inj : ∀ {s t x y : List Char},
    s.flatMap escape ++ '"' :: x = t.flatMap escape ++ '"' :: y → s = t ∧ x = y
  | [], [], _, _, h => ⟨rfl, List.tail_eq_of_cons_eq h⟩
  | [], d :: t, _, _, h => by
    obtain ⟨e, r, he, hne⟩ := escape_head d
    simp only [List.flatMap_nil, List.flatMap_cons, he, List.nil_append, List.cons_append] at h
    exact absurd (List.cons.inj h).1.symm hne
  | c :: s, [], _, _, h => by
    obtain ⟨e, r, he, hne⟩ := escape_head c
    simp only [List.flatMap_nil, List.flatMap_cons, he, List.nil_append, List.cons_append] at h
    exact absurd (List.cons.inj h).1 hne
  | c :: s, d :: t, x, y, h => by
    rw [List.flatMap_cons, List.flatMap_cons, List.append_assoc, List.append_assoc] at h
    obtain ⟨rfl, hrest⟩ := escape_append_inj h
    obtain ⟨rfl, hxy⟩ := flatMap_escape_inj hrest
    exact ⟨rfl, hxy⟩

/-- **A quoted text is read back**, whatever follows it. -/
theorem quoted_append_inj {s t x y : List Char} (h : quoted s ++ x = quoted t ++ y) :
    s = t ∧ x = y := by
  refine flatMap_escape_inj ?_
  simpa [quoted] using h

end KeyedRows.Text
