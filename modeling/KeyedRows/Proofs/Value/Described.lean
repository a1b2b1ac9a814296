/-
# Described values are told apart

The description of a value begins with its kind and ends where it was written to
end, whatever follows it (`described_append_inj`): numbers hold no parenthesis,
texts are read back, and the parts of lists and maps end before the comma or the
bracket that follows them. So two values have the same description exactly if
they are of one kind and equal part by part, at every depth, floating-point
numbers being as good as their descriptions (`described_eq_iff`).

Key definition: `Value.alike`.
Key theorems: **`described_eq_iff`**, **`describedList_eq_iff`**.
-/
import KeyedRows.Proofs.Text.Quoted
import KeyedRows.Value.Written

namespace KeyedRows

open Number Text

/-! ### Numbers -/

theorem digitsOf_injective : Function.Injective digitsOf := fun m n h =>
  calc
    m = Nat.ofDigitChars 10 (digitsOf m) 0 := Nat.ofDigitChars_ten_toDigits.symm
    _ = Nat.ofDigitChars 10 (digitsOf n) 0 := by rw [h]
    _ = n := Nat.ofDigitChars_ten_toDigits

theorem isDigit_of_mem_digitsOf {n : ℕ} {c : Char} (h : c ∈ digitsOf n) : c.isDigit = true :=
  Nat.isDigit_of_mem_toDigits (by decide) (by decide) h

theorem digitsOf_head (n : ℕ) : ∃ d t, digitsOf n = d :: t ∧ d.isDigit = true := by
  obtain ⟨d, t, h⟩ := List.exists_cons_of_ne_nil (Nat.toDigits_ne_nil : digitsOf n ≠ [])
  exact ⟨d, t, h, isDigit_of_mem_digitsOf (h ▸ List.mem_cons_self)⟩

theorem not_mem_digitsOf {c : Char} (hc : c.isDigit = false) (n : ℕ) : c ∉ digitsOf n := fun h => by
  have hdigit := isDigit_of_mem_digitsOf h
  rw [hc] at hdigit
  cases hdigit

theorem integerText_injective : Function.Injective integerText := by
  have hminus {m n : ℕ} (h : digitsOf m = '-' :: digitsOf n) : False :=
    not_mem_digitsOf (by decide) m (h ▸ List.mem_cons_self)
  intro m n h
  unfold integerText at h
  split_ifs at h with hm hn hn
  · have habs := digitsOf_injective (List.cons.inj h).2
    omega
  · exact (hminus h.symm).elim
  · exact (hminus h).elim
  · have habs := digitsOf_injective h
    omega

/-! ### No number holds a parenthesis -/

theorem paren_not_mem_digitsOf (n : ℕ) : ')' ∉ digitsOf n := not_mem_digitsOf (by decide) n

theorem paren_not_mem_integerText (n : ℤ) : ')' ∉ integerText n := by
  unfold integerText
  split_ifs <;> simp [paren_not_mem_digitsOf]

theorem paren_not_mem_toString (n : ℤ) : ')' ∉ (toString n).toList := by
  rw [Int.toString_eq_repr, Int.repr_eq_if]
  have hdigits (k : ℕ) : ')' ∉ Nat.toDigits 10 k := paren_not_mem_digitsOf k
  split_ifs <;> simp [hdigits]

theorem paren_not_mem_positional {digits : List Char} (h : ')' ∉ digits) (point : ℤ)
    (decimals : ℕ) : ')' ∉ positional digits point decimals := by
  have htake : ')' ∉ digits.take point.toNat := fun hm => h (List.mem_of_mem_take hm)
  have hdrop : ')' ∉ digits.drop point.toNat := fun hm => h (List.mem_of_mem_drop hm)
  unfold positional
  split_ifs <;> simp [h, htake, hdrop]

theorem paren_not_mem_scientific {digits : List Char} (h : ')' ∉ digits) (power : ℤ) :
    ')' ∉ scientific digits power := by
  have hpower := paren_not_mem_toString power
  unfold scientific
  split <;> simp_all

theorem paren_not_mem_write (s : Style) (f : Format) (b : Binary) : ')' ∉ s.write f b := by
  cases b with
  | nan => exact (by decide : ')' ∉ "NaN".toList)
  | infinite negative => cases negative <;> simp [Style.write]
  | finite negative m e =>
    have hbody {body : List Char} (h : ')' ∉ body) :
        ')' ∉ if negative then '-' :: body else body := by
      split_ifs <;> simp [h]
    refine hbody ?_
    by_cases hm : m = 0
    · rw [if_pos hm]
      exact paren_not_mem_positional (by decide : ')' ∉ ['0']) _ _
    · rw [if_neg hm]
      dsimp only
      split_ifs
      · exact paren_not_mem_scientific (paren_not_mem_digitsOf _) _
      · exact paren_not_mem_positional (paren_not_mem_digitsOf _) _ _

/-! ### Parts between commas -/

/-- What follows a part: a comma, or the bracket that closes the whole. -/
def Follows (close : Char) (t : List Char) : Prop := ∃ m rest, t = m :: rest ∧ (m = ',' ∨ m = close)

/-- The parts after the first one. -/
def laterParts (ps : List (List Char)) : List Char := ps.flatMap fun p => ',' :: ' ' :: p

theorem commaSeparated_cons : ∀ (p : List Char) (ps : List (List Char)),
    commaSeparated (p :: ps) = p ++ laterParts ps
  | p, [] => by simp [commaSeparated, laterParts]
  | p, q :: ps => by
    rw [commaSeparated, commaSeparated_cons q ps]
    simp [laterParts]

theorem follows_laterParts (close : Char) (rest : List Char) : ∀ ps : List (List Char),
    Follows close (laterParts ps ++ close :: rest)
  | [] => ⟨close, rest, rfl, .inr rfl⟩
  | _ :: _ => ⟨',', _, rfl, .inl rfl⟩

section

variable {α : Type} {text : α → List Char} {same : α → α → Prop} {close : Char}

theorem laterParts_append_inj (hclose : close ≠ ',') {x y : List Char} : ∀ {as bs : List α},
    (∀ a ∈ as, ∀ b ∈ bs, ∀ u v, Follows close u → Follows close v →
      text a ++ u = text b ++ v → same a b ∧ u = v) →
    laterParts (as.map text) ++ close :: x = laterParts (bs.map text) ++ close :: y →
      List.Forall₂ same as bs ∧ x = y
  | [], [], _, h => ⟨.nil, List.tail_eq_of_cons_eq h⟩
  | [], b :: bs, _, h => absurd (List.cons.inj h).1 hclose
  | a :: as, [], _, h => absurd (List.cons.inj h).1.symm hclose
  | a :: as, b :: bs, hparts, h => by
    simp only [laterParts, List.map_cons, List.flatMap_cons, List.cons_append, List.append_assoc,
      List.cons.injEq, true_and] at h
    obtain ⟨hab, hrest⟩ := hparts a List.mem_cons_self b List.mem_cons_self _ _
      (follows_laterParts close x (as.map text)) (follows_laterParts close y (bs.map text)) h
    obtain ⟨hall, hxy⟩ := laterParts_append_inj hclose
      (fun a ha b hb => hparts a (List.mem_cons_of_mem _ ha) b (List.mem_cons_of_mem _ hb)) hrest
    exact ⟨.cons hab hall, hxy⟩

/-- **Parts between commas are told apart** up to the closing bracket, if each of
them is told apart from what follows it, and none is empty or begins with the
bracket. -/
theorem commaSeparated_append_inj (hclose : close ≠ ',')
    (hhead : ∀ a, ∃ d t, text a = d :: t ∧ d ≠ close) {as bs : List α} {x y : List Char}
    (hparts : ∀ a ∈ as, ∀ b ∈ bs, ∀ u v, Follows close u → Follows close v →
      text a ++ u = text b ++ v → same a b ∧ u = v)
    (h : commaSeparated (as.map text) ++ close :: x = commaSeparated (bs.map text) ++ close :: y) :
    List.Forall₂ same as bs ∧ x = y := by
  have hnone (b : α) (bs : List α) {x y : List Char} :
      close :: x ≠ commaSeparated ((b :: bs).map text) ++ y := by
    obtain ⟨d, t, hd, hne⟩ := hhead b
    rw [List.map_cons, commaSeparated_cons, hd]
    exact fun h => hne (List.cons.inj h).1.symm
  cases as with
  | nil =>
    cases bs with
    | nil => exact ⟨.nil, List.tail_eq_of_cons_eq h⟩
    | cons b bs => exact absurd h (hnone b bs)
  | cons a as =>
    cases bs with
    | nil => exact absurd h.symm (hnone a as)
    | cons b bs =>
      -- put a comma before the first part, which makes it one of the later parts
      refine laterParts_append_inj hclose hparts ?_
      rw [List.map_cons, List.map_cons, commaSeparated_cons, commaSeparated_cons] at h
      simpa [laterParts] using h

end

/-! ### Values -/

theorem bytesText_append_inj {as bs : List UInt8} {x y : List Char}
    (h : bytesText as ++ x = bytesText bs ++ y) : as = bs ∧ x = y := by
  have hopen : commaSeparated (as.map fun b => digitsOf b.toNat) ++ ']' :: x =
      commaSeparated (bs.map fun b => digitsOf b.toNat) ++ ']' :: y := by
    simpa [bytesText] using h
  have hhead (b : UInt8) : ∃ d t, digitsOf b.toNat = d :: t ∧ d ≠ ']' := by
    obtain ⟨d, t, hd, hdigit⟩ := digitsOf_head b.toNat
    exact ⟨d, t, hd, fun he => by rw [he] at hdigit; cases hdigit⟩
  have hparts : ∀ a ∈ as, ∀ b ∈ bs, ∀ u v, Follows ']' u → Follows ']' v →
      digitsOf a.toNat ++ u = digitsOf b.toNat ++ v → a = b ∧ u = v := by
    rintro a - b - _ _ ⟨m, u, rfl, hm⟩ ⟨n, v, rfl, hn⟩ he
    have hstop {c : Char} (hc : c = ',' ∨ c = ']') : ¬ c.isDigit = true := by
      rcases hc with rfl | rfl <;> decide
    obtain ⟨hdigits, huv⟩ := append_stop_inj (hstop hm) (hstop hn)
      (fun _ => isDigit_of_mem_digitsOf) (fun _ => isDigit_of_mem_digitsOf) he
    exact ⟨UInt8.toNat_inj.mp (digitsOf_injective hdigits), huv⟩
  obtain ⟨hall, hxy⟩ := commaSeparated_append_inj (by decide) hhead hparts hopen
  exact ⟨List.forall₂_eq_eq_eq ▸ hall, hxy⟩

namespace Value

/-- The two 32-bit numbers have one description. -/
def sameWritten32 (a b : Float32) : Bool :=
  Style.described.write .binary32 (ofFloat32 a) == Style.described.write .binary32 (ofFloat32 b)

/-- The two 64-bit numbers have one description. -/
def sameWritten64 (a b : Float) : Bool :=
  Style.described.write .binary64 (ofFloat a) == Style.described.write .binary64 (ofFloat b)

/-- The two values are of one kind and equal part by part, at every depth.
Floating-point numbers count as equal if they have one description. -/
def alike : Value → Value → Bool := eqBy sameWritten32 sameWritten64

/-- One entry of a map. -/
def describedEntry (e : String × Value) : List Char :=
  quoted e.1.toList ++ ':' :: ' ' :: described e.2

theorem describedItems_eq_map : ∀ vs : List Value, describedItems vs = vs.map described
  | [] => rfl
  | v :: vs => by rw [describedItems, describedItems_eq_map vs, List.map_cons]

theorem describedEntries_eq_map : ∀ es : List (String × Value),
    describedEntries es = es.map describedEntry
  | [] => rfl
  | (n, v) :: es => by
    rw [describedEntries, describedEntries_eq_map es, List.map_cons, describedEntry]

/-- No name of a kind is the beginning of another. -/
theorem kindName_append_inj {k l : Kind} {x y : List Char}
    (h : k.name.toList ++ x = l.name.toList ++ y) : k = l ∧ x = y := by
  have hextended : ∀ k l : Kind, k.name.toList <+: l.name.toList → k = l := by
    intro k l
    cases k <;> cases l <;> decide
  have hkind : k = l := by
    rcases List.prefix_or_prefix_of_prefix (List.prefix_append _ x) (h ▸ List.prefix_append _ y)
      with hk | hl
    · exact hextended k l hk
    · exact (hextended l k hl).symm
  subst hkind
  exact ⟨rfl, List.append_cancel_left h⟩

theorem tagged_eq (k : Kind) (content : List Char) :
    tagged k content = k.name.toList ++ '(' :: (content ++ [')']) := by
  simp [tagged]

/-- A description begins with the kind. -/
theorem described_kind (v : Value) : ∃ t, described v = v.kind.name.toList ++ t := by
  cases v with
  | null => exact ⟨[], rfl⟩
  | _ => exact ⟨_, by rw [described, tagged_eq]; rfl⟩

theorem tagged_append_inj {k : Kind} {c d x y : List Char}
    (h : tagged k c ++ x = tagged k d ++ y) : c ++ ')' :: x = d ++ ')' :: y := by
  simpa [tagged_eq] using h

/-- What is in parentheses and holds none is told apart from what follows. -/
theorem tagged_append_inj_of_plain {k : Kind} {c d x y : List Char} (hc : ')' ∉ c) (hd : ')' ∉ d)
    (h : tagged k c ++ x = tagged k d ++ y) : c = d ∧ x = y :=
  append_mark_inj hc hd (tagged_append_inj h)

theorem described_head (v : Value) : ∃ d t, described v = d :: t ∧ d ≠ ']' := by
  have hname : ∀ k : Kind, ∃ d t, k.name.toList = d :: t ∧ d ≠ ']' := fun k => by
    cases k <;> exact ⟨_, _, rfl, by decide⟩
  obtain ⟨t, ht⟩ := described_kind v
  obtain ⟨d, u, hd, hne⟩ := hname v.kind
  exact ⟨d, u ++ t, by rw [ht, hd, List.cons_append], hne⟩

theorem itemsEqBy_iff_forall₂ {same32 : Float32 → Float32 → Bool} {same64 : Float → Float → Bool} :
    ∀ as bs : List Value, itemsEqBy same32 same64 as bs = true ↔
      List.Forall₂ (fun a b => eqBy same32 same64 a b = true) as bs
  | [], [] => by simp [itemsEqBy]
  | [], b :: bs => by simp [itemsEqBy]
  | a :: as, [] => by simp [itemsEqBy]
  | a :: as, b :: bs => by simp [itemsEqBy, itemsEqBy_iff_forall₂ as bs]

theorem entriesEqBy_iff_forall₂ {same32 : Float32 → Float32 → Bool}
    {same64 : Float → Float → Bool} : ∀ as bs : List (String × Value),
    entriesEqBy same32 same64 as bs = true ↔
      List.Forall₂ (fun a b => a.1 = b.1 ∧ eqBy same32 same64 a.2 b.2 = true) as bs
  | [], [] => by simp [entriesEqBy]
  | [], b :: bs => by simp [entriesEqBy]
  | a :: as, [] => by simp [entriesEqBy]
  | a :: as, b :: bs => by simp [entriesEqBy, entriesEqBy_iff_forall₂ as bs, and_assoc]

theorem tagged_integer_append_inj {k : Kind} {m n : ℤ} {x y : List Char}
    (h : tagged k (integerText m) ++ x = tagged k (integerText n) ++ y) : m = n ∧ x = y := by
  obtain ⟨hmn, hxy⟩ := tagged_append_inj_of_plain (paren_not_mem_integerText m)
    (paren_not_mem_integerText n) h
  exact ⟨integerText_injective hmn, hxy⟩

theorem sizeOf_entry_lt {e : String × Value} {es : List (String × Value)} (h : e ∈ es) :
    sizeOf e.2 < sizeOf (Value.map es) := by
  have hentry := List.sizeOf_lt_of_mem h
  have hvalue : sizeOf e.2 < sizeOf e := by
    cases e
    simp
  simp
  omega

/-- **A description is told apart from what follows it.** -/
theorem described_append_inj (v w : Value) {x y : List Char}
    (h : described v ++ x = described w ++ y) : v.alike w = true ∧ x = y := by
  have hkind : v.kind = w.kind := by
    obtain ⟨s, hs⟩ := described_kind v
    obtain ⟨t, ht⟩ := described_kind w
    rw [hs, ht, List.append_assoc, List.append_assoc] at h
    exact (kindName_append_inj h).1
  cases v <;> cases w <;> try cases hkind
  case null.null => exact ⟨rfl, List.append_cancel_left h⟩
  case bool.bool a b =>
    cases a <;> cases b
    · exact ⟨rfl, List.append_cancel_left h⟩
    · exact absurd (tagged_append_inj h) (by simp)
    · exact absurd (tagged_append_inj h) (by simp)
    · exact ⟨rfl, List.append_cancel_left h⟩
  case int8.int8 a b =>
    obtain ⟨hab, hxy⟩ := tagged_integer_append_inj h
    exact ⟨by simpa [alike, eqBy] using Int8.toInt_inj.mp hab, hxy⟩
  case int16.int16 a b =>
    obtain ⟨hab, hxy⟩ := tagged_integer_append_inj h
    exact ⟨by simpa [alike, eqBy] using Int16.toInt_inj.mp hab, hxy⟩
  case int32.int32 a b =>
    obtain ⟨hab, hxy⟩ := tagged_integer_append_inj h
    exact ⟨by simpa [alike, eqBy] using Int32.toInt_inj.mp hab, hxy⟩
  case int64.int64 a b =>
    obtain ⟨hab, hxy⟩ := tagged_integer_append_inj h
    exact ⟨by simpa [alike, eqBy] using Int64.toInt_inj.mp hab, hxy⟩
  case float32.float32 a b =>
    obtain ⟨hab, hxy⟩ := tagged_append_inj_of_plain (paren_not_mem_write _ _ _)
      (paren_not_mem_write _ _ _) h
    exact ⟨by simpa [alike, eqBy, sameWritten32] using hab, hxy⟩
  case float64.float64 a b =>
    obtain ⟨hab, hxy⟩ := tagged_append_inj_of_plain (paren_not_mem_write _ _ _)
      (paren_not_mem_write _ _ _) h
    exact ⟨by simpa [alike, eqBy, sameWritten64] using hab, hxy⟩
  case text.text a b =>
    obtain ⟨hab, hxy⟩ := quoted_append_inj (tagged_append_inj h)
    exact ⟨by simpa [alike, eqBy] using String.toList_inj.mp hab, List.tail_eq_of_cons_eq hxy⟩
  case bytes.bytes a b =>
    obtain ⟨hab, hxy⟩ := bytesText_append_inj (tagged_append_inj h)
    exact ⟨by simpa [alike, eqBy] using hab, List.tail_eq_of_cons_eq hxy⟩
  case list.list as bs =>
    have hopen : commaSeparated (as.map described) ++ ']' :: ')' :: x =
        commaSeparated (bs.map described) ++ ']' :: ')' :: y := by
      simpa [describedItems_eq_map] using tagged_append_inj h
    obtain ⟨hall, hxy⟩ : List.Forall₂ (fun a b => a.alike b = true) as bs ∧ _ :=
      commaSeparated_append_inj (by decide) described_head
        (fun a ha b _ u v _ _ huv => described_append_inj a b huv) hopen
    exact ⟨(itemsEqBy_iff_forall₂ as bs).mpr hall, List.tail_eq_of_cons_eq hxy⟩
  case map.map as bs =>
    have hopen : commaSeparated (as.map describedEntry) ++ '}' :: ')' :: x =
        commaSeparated (bs.map describedEntry) ++ '}' :: ')' :: y := by
      simpa [describedEntries_eq_map] using tagged_append_inj h
    have hhead (e : String × Value) : ∃ d t, describedEntry e = d :: t ∧ d ≠ '}' :=
      ⟨'"', _, rfl, by decide⟩
    obtain ⟨hall, hxy⟩ : List.Forall₂ (fun a b => a.1 = b.1 ∧ a.2.alike b.2 = true) as bs ∧ _ :=
      commaSeparated_append_inj (by decide) hhead (fun a ha b _ u v _ _ huv => by
        rw [describedEntry, describedEntry, List.append_assoc, List.append_assoc] at huv
        obtain ⟨hname, hrest⟩ := quoted_append_inj huv
        have hsize : sizeOf a.2 < sizeOf (Value.map as) := sizeOf_entry_lt ha
        obtain ⟨hvalue, huv⟩ := described_append_inj a.2 b.2
          (List.tail_eq_of_cons_eq (List.tail_eq_of_cons_eq hrest))
        exact ⟨⟨String.toList_inj.mp hname, hvalue⟩, huv⟩) hopen
    exact ⟨(entriesEqBy_iff_forall₂ as bs).mpr hall, List.tail_eq_of_cons_eq hxy⟩
termination_by v
decreasing_by
  · decreasing_tactic
  · subst_vars
    exact hsize

mutual

theorem described_of_alike : ∀ {v w : Value}, v.alike w = true → described v = described w
  | .list as, w, h => by
    cases w <;> simp only [alike, eqBy, Bool.false_eq_true] at h
    rw [described, described, describedItems_of_alike h]
  | .map as, w, h => by
    cases w <;> simp only [alike, eqBy, Bool.false_eq_true] at h
    rw [described, described, describedEntries_of_alike h]
  | .null, w, h | .bool _, w, h | .int8 _, w, h | .int16 _, w, h | .int32 _, w, h
  | .int64 _, w, h | .float32 _, w, h | .float64 _, w, h | .text _, w, h | .bytes _, w, h => by
    cases w <;> simp_all [alike, eqBy, described, sameWritten32, sameWritten64]

theorem describedItems_of_alike : ∀ {as bs : List Value},
    itemsEqBy sameWritten32 sameWritten64 as bs = true → describedItems as = describedItems bs
  | [], [], _ => rfl
  | [], b :: bs, h => by simp [itemsEqBy] at h
  | a :: as, [], h => by simp [itemsEqBy] at h
  | a :: as, b :: bs, h => by
    obtain ⟨hab, hrest⟩ := (Bool.and_eq_true _ _).mp h
    rw [describedItems, describedItems, described_of_alike hab, describedItems_of_alike hrest]

theorem describedEntries_of_alike : ∀ {as bs : List (String × Value)},
    entriesEqBy sameWritten32 sameWritten64 as bs = true → describedEntries as = describedEntries bs
  | [], [], _ => rfl
  | [], b :: bs, h => by simp [entriesEqBy] at h
  | a :: as, [], h => by simp [entriesEqBy] at h
  | (m, a) :: as, (n, b) :: bs, h => by
    simp only [entriesEqBy, Bool.and_eq_true, beq_iff_eq] at h
    obtain ⟨⟨rfl, hab⟩, hrest⟩ := h
    rw [describedEntries, describedEntries, described_of_alike hab, describedEntries_of_alike hrest]

end

/-- **Two values have one description exactly if they are alike.** -/
theorem described_eq_iff {v w : Value} : described v = described w ↔ v.alike w = true :=
  ⟨fun h => (described_append_inj v w (x := []) (y := []) (by rw [h])).1, described_of_alike⟩

/-- **Two lists of values have one description exactly if they are alike value by
value.** -/
theorem describedList_eq_iff {vs ws : List Value} :
    describedList vs = describedList ws ↔ List.Forall₂ (fun v w => v.alike w = true) vs ws := by
  have hlist (us : List Value) : described (.list us) = tagged .list (describedList us) := by
    rw [described, describedList]
  constructor
  · intro h
    have hdescribed : described (.list vs) = described (.list ws) := by rw [hlist, hlist, h]
    exact (itemsEqBy_iff_forall₂ vs ws).mp (described_eq_iff.mp hdescribed)
  · intro h
    rw [describedList, describedList, describedItems_of_alike ((itemsEqBy_iff_forall₂ vs ws).mpr h)]

end Value

end KeyedRows
