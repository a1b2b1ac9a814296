/-
# Written documents are read back

A text ends at the quote that closes it, since no escape begins with a quote and
each is read as a whole (`readUnits_escapeUnit`). A number ends before the first
character that cannot belong to one. So a value ends where it was written to end,
whatever follows it, and the length of its text bounds how deep and how long the
reader must look (`readValue_write`). A written document is therefore read back,
with the control characters that have no letter of their own as code units.

Key definitions: `Json.Writable`, `Json.reread`.
Key theorem: **`ofText?_write`**.
-/
import Mathlib
import KeyedRows.Json.Printer
import KeyedRows.Json.Reader
import KeyedRows.Proofs.Number.Digits

namespace KeyedRows

namespace TextUnit

/-- The unit has a written form: code units have 16 bits. -/
def Fits : TextUnit → Prop
  | .char _ => True
  | .code n => n < 2 ^ 16

/-- What the written unit is read as: control characters without a letter of their
own are written by number. -/
def reread : TextUnit → TextUnit
  | .code n => .code n
  | .char c =>
    if c.toNat < 0x20 ∧ c ∉ ['\x08', '\x0c', '\n', '\r', '\t'] then .code c.toNat else .char c

end TextUnit

/-- Texts are of the same characters after they are written and read. -/
theorem joinUnits?_reread (cs : List Char) :
    joinUnits? ((cs.map .char).map TextUnit.reread) = some cs := by
  induction cs with
  | nil => rfl
  | cons c cs ih =>
    rw [List.map_cons, List.map_cons, TextUnit.reread]
    split_ifs with hcontrol
    · have hlead : isLeading c.toNat = false := by simp [isLeading]; omega
      have htrail : isTrailing c.toNat = false := by simp [isTrailing]; omega
      rw [joinUnits?.eq_def]
      simp only [hlead, htrail, ih, Bool.false_eq_true, if_false, Option.map_some,
        Char.ofNat_toNat]
    · simp only [joinUnits?, ih, Option.map_some]

namespace Json

open Number

/-! ### Texts -/

theorem hexDigit?_digitChar : ∀ d < 16, hexDigit? (Nat.digitChar d) = some d := by decide

/-- A code unit is read back from its four digits. -/
theorem readUnits_hexText {n : ℕ} (hn : n < 2 ^ 16) (rest : List Char) :
    readUnits ('\\' :: 'u' :: hexText n ++ rest) =
      (readUnits rest).map fun (us, rest) => (.code n :: us, rest) := by
  have hunit : hexUnit? (Nat.digitChar (n / 4096)) (Nat.digitChar (n / 256 % 16))
      (Nat.digitChar (n / 16 % 16)) (Nat.digitChar (n % 16)) = some n := by
    rw [hexUnit?, hexDigit?_digitChar _ (by omega), hexDigit?_digitChar _ (by omega),
      hexDigit?_digitChar _ (by omega), hexDigit?_digitChar _ (by omega)]
    refine congrArg some ?_
    omega
  simp only [hexText, List.map_cons, List.map_nil, List.cons_append, List.nil_append, readUnits,
    hunit]

/-- A character stands for itself, or is written by a letter, or by its number. -/
theorem escapeUnit_cases (c : Char) :
    (escapeUnit (.char c) = [c] ∧ (TextUnit.char c).reread = .char c ∧
        c ≠ '"' ∧ c ≠ '\\' ∧ ¬ c.toNat < 0x20) ∨
      (∃ e, escapeUnit (.char c) = ['\\', e] ∧ (TextUnit.char c).reread = .char c ∧
        e ≠ 'u' ∧ shortEscape? e = some c) ∨
      (escapeUnit (.char c) = '\\' :: 'u' :: hexText c.toNat ∧
        (TextUnit.char c).reread = .code c.toNat ∧ c.toNat < 0x20) := by
  simp only [escapeUnit, TextUnit.reread]
  by_cases hplain : c = '"' ∨ c = '\\'
  · rcases hplain with rfl | rfl <;> exact .inr (.inl ⟨_, rfl, rfl, by decide, rfl⟩)
  by_cases hletter : c ∈ ['\x08', '\x0c', '\n', '\r', '\t']
  · simp only [List.mem_cons, List.not_mem_nil, or_false] at hletter
    rcases hletter with rfl | rfl | rfl | rfl | rfl <;>
      exact .inr (.inl ⟨_, rfl, rfl, by decide, rfl⟩)
  obtain ⟨hquote, hslash⟩ := not_or.mp hplain
  have hletters := hletter
  simp only [List.mem_cons, List.not_mem_nil, or_false, not_or] at hletters
  obtain ⟨hback, hfeed, hline, hreturn, htab⟩ := hletters
  simp only [hquote, hslash, hback, hfeed, hline, hreturn, htab, hletter, or_self, if_false,
    not_false_eq_true, and_true]
  by_cases hcontrol : c.toNat < 0x20
  · simp [hcontrol]
  · simp [hcontrol, hquote, hslash]

/-- **A written unit is read as one unit**, whatever follows it. -/
theorem readUnits_escapeUnit {u : TextUnit} (hu : u.Fits) (rest : List Char) :
    readUnits (escapeUnit u ++ rest) =
      (readUnits rest).map fun (us, rest) => (u.reread :: us, rest) := by
  cases u with
  | code n => exact readUnits_hexText hu rest
  | char c =>
    rcases escapeUnit_cases c with ⟨hc, hread, hquote, hslash, hcontrol⟩ |
      ⟨e, hc, hread, hne, he⟩ | ⟨hc, hread, hcontrol⟩
    · rw [hc, hread, List.singleton_append, readUnits.eq_def]
      split <;> simp_all
    · rw [hc, hread, List.cons_append, List.singleton_append, readUnits, he]
      exact fun _ _ _ _ _ he' => absurd he' hne
    · rw [hc, hread]
      exact readUnits_hexText (by omega) rest

/-- **A written text ends at its closing quote.** -/
theorem readUnits_flatMap {us : List TextUnit} (hus : ∀ u ∈ us, u.Fits) (rest : List Char) :
    readUnits (us.flatMap escapeUnit ++ '"' :: rest) = some (us.map .reread, rest) := by
  induction us with
  | nil => simp [readUnits]
  | cons u us ih =>
    rw [List.forall_mem_cons] at hus
    rw [List.flatMap_cons, List.append_assoc, readUnits_escapeUnit hus.1, ih hus.2]
    rfl

/-! ### Numbers -/

/-- The text begins with no character that could go on a number. -/
def EndsNumber (cs : List Char) : Prop := ∀ c ∈ cs.head?, c.isDigit = false ∧ c ∉ ['.', 'e', 'E']

theorem EndsNumber.endsDigits {rest : List Char} (h : EndsNumber rest) : EndsDigits rest :=
  fun c hc => (h c hc).1

/-- A number in digits has no fraction and no power after it. -/
theorem readTail_of_endsNumber {rest : List Char} (h : EndsNumber rest) :
    readTail rest = some ([], rest) := by
  cases rest with
  | nil => rfl
  | cons c rest =>
    have hc := (h c rfl).2
    simp only [List.mem_cons, List.not_mem_nil, or_false, not_or] at hc
    obtain ⟨hpoint, he, hE⟩ := hc
    unfold readTail
    split
    · rename_i heq
      exact absurd (List.cons.inj heq).1 hpoint
    · simp [he, hE]

/-- The digits of a number are its whole part. -/
theorem readWhole_toDigits (n : ℕ) {rest : List Char} (h : EndsNumber rest) :
    readWhole (Nat.toDigits 10 n ++ rest) = some (Nat.toDigits 10 n, rest) := by
  obtain ⟨d, t, hdt⟩ := List.exists_cons_of_ne_nil (Nat.toDigits_ne_nil (n := n) (b := 10))
  have hdigits : readDigits (Nat.toDigits 10 n ++ rest) = some (Nat.toDigits 10 n, rest) := by
    rw [readDigits, takeWhile_digits (digits_toDigits n) h.endsDigits,
      dropWhile_digits (digits_toDigits n) h.endsDigits, hdt]
  rw [readWhole, hdigits]
  split
  · rename_i heq
    have heq := (Prod.mk.inj (Option.some.inj heq)).1
    rcases Nat.eq_zero_or_pos n with rfl | hn
    · cases heq
    · exact absurd (by rw [heq]; rfl) (toDigits_head_ne_zero hn)
  · rfl

theorem readNumber_toDigits (n : ℕ) {rest : List Char} (h : EndsNumber rest) :
    readNumber (Nat.toDigits 10 n ++ rest) = some (Nat.toDigits 10 n, rest) := by
  rw [readNumber]
  · simp only [readWhole_toDigits n h, readTail_of_endsNumber h, bind, Option.bind_some,
      List.nil_append, List.append_nil, pure]
  · intro cs heq
    obtain ⟨d, t, hdt⟩ := List.exists_cons_of_ne_nil (Nat.toDigits_ne_nil (n := n) (b := 10))
    rw [hdt, List.cons_append] at heq
    have hd : d.isDigit = true := digits_toDigits n d (by rw [hdt]; exact List.mem_cons_self)
    rw [(List.cons.inj heq).1] at hd
    cases hd

/-! ### Documents -/

theorem skipBlanks_newLine (depth : ℕ) (cs : List Char) :
    skipBlanks (newLine depth ++ cs) = skipBlanks cs := by
  refine List.dropWhile_append_of_pos fun c hc => ?_
  rcases List.mem_cons.mp hc with rfl | hc
  · decide
  · rw [List.eq_of_mem_replicate hc]
    decide

/-- Lines begin with the first of them. -/
theorem withCommas_cons (line : List Char) : ∀ lines : List (List Char),
    ∃ t, withCommas (line :: lines) = line ++ t
  | [] => ⟨[], (List.append_nil line).symm⟩
  | _ :: _ => ⟨_, rfl⟩

/-- Blanks before a value do not count. -/
theorem readValue_skipBlanks (n : ℕ) (cs : List Char) :
    readValue n (skipBlanks cs) = readValue n cs := by
  cases n with
  | zero => rfl
  | succ n => rw [readValue, readValue, skipBlanks, skipBlanks, List.dropWhile_idempotent]

theorem readValue_newLine (n depth : ℕ) (cs : List Char) :
    readValue n (newLine depth ++ cs) = readValue n cs := by
  rw [← readValue_skipBlanks, skipBlanks_newLine, readValue_skipBlanks]

/-- A document that can be written: its numbers are counts in digits. -/
inductive Writable : Json → Prop where
  | null : Writable .null
  | bool (b : Bool) : Writable (.bool b)
  | count (n : ℕ) : Writable (.number (Nat.toDigits 10 n))
  | text {us : List TextUnit} : (∀ u ∈ us, u.Fits) → Writable (.text us)
  | array {items : List Json} : (∀ v ∈ items, Writable v) → Writable (.array items)
  | object {fields : List (List TextUnit × Json)} : (∀ e ∈ fields, ∀ u ∈ e.1, u.Fits) →
      (∀ e ∈ fields, Writable e.2) → Writable (.object fields)

mutual

/-- What the written document is read as. -/
def reread : Json → Json
  | .text us => .text (us.map .reread)
  | .array items => .array (rereadItems items)
  | .object fields => .object (rereadFields fields)
  | .null => .null
  | .bool b => .bool b
  | .number written => .number written

def rereadItems : List Json → List Json
  | [] => []
  | v :: vs => reread v :: rereadItems vs

def rereadFields : List (List TextUnit × Json) → List (List TextUnit × Json)
  | [] => []
  | (n, v) :: fs => (n.map .reread, reread v) :: rereadFields fs

end

/-- The value is read back at any depth, if the reader may look as far as its text
is long. -/
def ReadBack (j : Json) : Prop := ∀ (depth n : ℕ) (rest : List Char), EndsNumber rest →
  (write depth j).length ≤ n → readValue n (write depth j ++ rest) = some (j.reread, rest)

theorem isBlank_of_isDigit {c : Char} (hc : c.isDigit = true) : isBlank c = false := by
  rw [Bool.eq_false_iff]
  intro hb
  simp only [isBlank, Bool.or_eq_true, beq_iff_eq] at hb
  rcases hb with ((rfl | rfl) | rfl) | rfl <;> cases hc

/-- A digit is the start of no other value than a number. -/
theorem readValue_digit {c : Char} (hc : c.isDigit = true) (n : ℕ) (cs : List Char) :
    readValue (n + 1) (c :: cs) = (readNumber (c :: cs)).map fun (w, rest) => (.number w, rest) := by
  have hblank : skipBlanks (c :: cs) = c :: cs := by
    simp [skipBlanks, isBlank_of_isDigit hc]
  rw [readValue, hblank]
  split <;> first | rfl | (rename_i heq; rw [(List.cons.inj heq).1] at hc; cases hc)

theorem readBack_count (n : ℕ) : ReadBack (.number (Nat.toDigits 10 n)) := by
  intro depth m rest hrest hm
  obtain ⟨c, t, hct⟩ := List.exists_cons_of_ne_nil (Nat.toDigits_ne_nil (n := n) (b := 10))
  have hc : c.isDigit = true := digits_toDigits n c (by rw [hct]; exact List.mem_cons_self)
  have hread := readNumber_toDigits n hrest
  rw [write] at hm ⊢
  cases m with
  | zero => simp [hct] at hm
  | succ m =>
    rw [hct, List.cons_append] at hread ⊢
    rw [readValue_digit hc, hread]
    rfl

/-- What is read of items once the first is. -/
def afterItem (n : ℕ) (v : Json) (rest : List Char) : Option (List Json × List Char) :=
  match skipBlanks rest with
  | ',' :: cs => (readItems n cs).map fun (vs, rest) => (v :: vs, rest)
  | ']' :: rest => some ([v], rest)
  | _ => none

theorem afterItem_comma (n : ℕ) (v : Json) (cs : List Char) :
    afterItem n v (',' :: cs) = (readItems n cs).map fun (vs, rest) => (v :: vs, rest) := rfl

theorem afterItem_close (n outer : ℕ) (v : Json) (rest : List Char) :
    afterItem n v (newLine outer ++ ']' :: rest) = some ([v], rest) := by
  rw [afterItem, skipBlanks_newLine]
  rfl

/-- An item is read, and what comes after it decides whether others follow. -/
theorem readItems_item {v : Json} (hv : ReadBack v) {depth n : ℕ} {rest : List Char}
    (hrest : EndsNumber rest) (hn : (write depth v).length ≤ n) :
    readItems (n + 1) (newLine depth ++ (write depth v ++ rest)) = afterItem n v.reread rest := by
  rw [readItems, readValue_newLine, hv depth n rest hrest hn]
  rfl

/-- Items are read back up to the closing bracket. -/
theorem readItems_lines (depth outer : ℕ) (rest : List Char) : ∀ (vs : List Json) (v : Json) (n : ℕ),
    (∀ w ∈ v :: vs, ReadBack w) →
    (withCommas (itemLines depth (v :: vs)) ++ newLine outer).length < n →
    readItems n (withCommas (itemLines depth (v :: vs)) ++ (newLine outer ++ ']' :: rest)) =
      some (rereadItems (v :: vs), rest)
  | _, _, 0, _, hn => absurd hn (Nat.not_lt_zero _)
  | [], v, n + 1, h, hn => by
    have hline : withCommas (itemLines depth [v]) = newLine depth ++ write depth v := rfl
    simp only [hline, List.length_append, newLine, List.length_cons] at hn
    rw [hline, List.append_assoc, readItems_item (h v List.mem_cons_self)
      (by simp [EndsNumber, newLine]) (by omega), afterItem_close]
    rfl
  | w :: vs, v, n + 1, h, hn => by
    have hlines : withCommas (itemLines depth (v :: w :: vs)) =
        newLine depth ++ write depth v ++ ',' :: withCommas (itemLines depth (w :: vs)) := rfl
    simp only [hlines, List.length_append, List.length_cons, newLine] at hn
    have hvs := readItems_lines depth outer rest vs w n (fun u hu => h u (List.mem_cons_of_mem v hu))
      (by simp only [List.length_append, newLine, List.length_cons]; omega)
    rw [hlines, List.append_assoc, List.append_assoc, readItems_item (h v List.mem_cons_self)
      (by simp [EndsNumber]) (by omega), List.cons_append, afterItem_comma, hvs]
    rfl

/-- What is read of fields once the first is. -/
def afterField (n : ℕ) (name : List TextUnit) (v : Json) (rest : List Char) :
    Option (List (List TextUnit × Json) × List Char) :=
  match skipBlanks rest with
  | ',' :: cs => (readFields n cs).map fun (fs, rest) => ((name, v) :: fs, rest)
  | '\x7d' :: rest => some ([(name, v)], rest)
  | _ => none

theorem afterField_comma (n : ℕ) (name : List TextUnit) (v : Json) (cs : List Char) :
    afterField n name v (',' :: cs) =
      (readFields n cs).map fun (fs, rest) => ((name, v) :: fs, rest) := rfl

theorem afterField_close (n outer : ℕ) (name : List TextUnit) (v : Json) (rest : List Char) :
    afterField n name v (newLine outer ++ '\x7d' :: rest) = some ([(name, v)], rest) := by
  rw [afterField, skipBlanks_newLine]
  rfl

/-- A field is read, and what comes after it decides whether others follow. -/
theorem readFields_field {name : List TextUnit} {v : Json} (hname : ∀ u ∈ name, u.Fits)
    (hv : ReadBack v) {depth n : ℕ} {rest : List Char} (hrest : EndsNumber rest)
    (hn : (write depth v).length ≤ n) :
    readFields (n + 1) (newLine depth ++ (writeText name ++ ':' :: ' ' :: (write depth v ++ rest))) =
      afterField n (name.map .reread) v.reread rest := by
  have htext : skipBlanks (newLine depth ++
      (writeText name ++ ':' :: ' ' :: (write depth v ++ rest))) =
      '"' :: (name.flatMap escapeUnit ++ '"' :: ':' :: ' ' :: (write depth v ++ rest)) := by
    rw [skipBlanks_newLine, writeText]
    simp [skipBlanks, isBlank]
  have hcolon (cs : List Char) : skipBlanks (':' :: cs) = ':' :: cs := rfl
  have hvalue : readValue n (' ' :: (write depth v ++ rest)) = some (v.reread, rest) := by
    rw [← readValue_skipBlanks, ← hv depth n rest hrest hn, ← readValue_skipBlanks n (write _ _ ++ _)]
    rfl
  rw [readFields, htext]
  simp only [readUnits_flatMap hname, hcolon, hvalue]
  rfl

/-- Fields are read back up to the closing brace. -/
theorem readFields_lines (depth outer : ℕ) (rest : List Char) :
    ∀ (fs : List (List TextUnit × Json)) (f : List TextUnit × Json) (n : ℕ),
    (∀ e ∈ f :: fs, ∀ u ∈ e.1, u.Fits) → (∀ e ∈ f :: fs, ReadBack e.2) →
    (withCommas (fieldLines depth (f :: fs)) ++ newLine outer).length < n →
    readFields n (withCommas (fieldLines depth (f :: fs)) ++ (newLine outer ++ '\x7d' :: rest)) =
      some (rereadFields (f :: fs), rest)
  | _, _, 0, _, _, hn => absurd hn (Nat.not_lt_zero _)
  | [], (name, v), n + 1, hfits, h, hn => by
    have hline : withCommas (fieldLines depth [(name, v)]) =
        newLine depth ++ writeText name ++ ':' :: ' ' :: write depth v := rfl
    simp only [hline, List.length_append, newLine, List.length_cons] at hn
    rw [hline, List.append_assoc, List.append_assoc, List.cons_append, List.cons_append,
      readFields_field (v := v) (hfits _ List.mem_cons_self) (h _ List.mem_cons_self)
        (by simp [EndsNumber, newLine]) (by omega), afterField_close]
    rfl
  | w :: fs, (name, v), n + 1, hfits, h, hn => by
    have hlines : withCommas (fieldLines depth ((name, v) :: w :: fs)) =
        newLine depth ++ writeText name ++ ':' :: ' ' :: write depth v ++
          ',' :: withCommas (fieldLines depth (w :: fs)) := rfl
    simp only [hlines, List.length_append, List.length_cons, newLine] at hn
    have hfs := readFields_lines depth outer rest fs w n
      (fun e he => hfits e (List.mem_cons_of_mem _ he)) (fun e he => h e (List.mem_cons_of_mem _ he))
      (by simp only [List.length_append, newLine, List.length_cons]; omega)
    rw [hlines, List.append_assoc, List.append_assoc, List.append_assoc, List.cons_append,
      List.cons_append, readFields_field (v := v) (hfits _ List.mem_cons_self) (h _ List.mem_cons_self)
        (by simp [EndsNumber]) (by omega), List.cons_append, afterField_comma, hfs]
    rfl

theorem readItems_skipBlanks (n : ℕ) (cs : List Char) :
    readItems n (skipBlanks cs) = readItems n cs := by
  cases n with
  | zero => rfl
  | succ n => rw [readItems, readItems, readValue_skipBlanks]

theorem readFields_skipBlanks (n : ℕ) (cs : List Char) :
    readFields n (skipBlanks cs) = readFields n cs := by
  cases n with
  | zero => rfl
  | succ n => rw [readFields, readFields, skipBlanks, skipBlanks, List.dropWhile_idempotent]

/-- A written value begins with no blank and no closing bracket. -/
theorem write_head {v : Json} (hv : Writable v) (depth : ℕ) :
    ∃ c t, write depth v = c :: t ∧ isBlank c = false ∧ c ≠ ']' := by
  cases hv with
  | null => exact ⟨'n', "ull".toList, rfl, rfl, by decide⟩
  | bool b =>
    cases b with
    | true => exact ⟨'t', "rue".toList, rfl, rfl, by decide⟩
    | false => exact ⟨'f', "alse".toList, rfl, rfl, by decide⟩
  | count n =>
    obtain ⟨c, t, hct⟩ := List.exists_cons_of_ne_nil (Nat.toDigits_ne_nil (n := n) (b := 10))
    have hc : c.isDigit = true := digits_toDigits n c (by rw [hct]; exact List.mem_cons_self)
    exact ⟨c, t, hct, isBlank_of_isDigit hc, fun he => by rw [he] at hc; cases hc⟩
  | text => exact ⟨'"', _, rfl, rfl, by decide⟩
  | @array items =>
    cases items <;> exact ⟨'[', _, rfl, rfl, by decide⟩
  | @object fields =>
    rcases fields with _ | ⟨f, fs⟩ <;> exact ⟨'\x7b', _, rfl, rfl, by decide⟩

/-- Items after the opening bracket. -/
theorem readValue_items {cs : List Char} {c : Char} {t : List Char} (hcs : skipBlanks cs = c :: t)
    (hc : c ≠ ']') (n : ℕ) :
    readValue (n + 1) ('[' :: cs) = (readItems n cs).map fun (vs, rest) => (.array vs, rest) := by
  have hopen : skipBlanks ('[' :: cs) = '[' :: cs := rfl
  rw [readValue, hopen, ← readItems_skipBlanks]
  simp only
  split
  · rename_i heq
    rw [hcs] at heq
    exact absurd (List.cons.inj heq).1 hc
  · rfl

/-- Fields after the opening brace. -/
theorem readValue_fields {cs : List Char} {c : Char} {t : List Char} (hcs : skipBlanks cs = c :: t)
    (hc : c ≠ '\x7d') (n : ℕ) :
    readValue (n + 1) ('\x7b' :: cs) =
      (readFields n cs).map fun (fs, rest) => (.object fs, rest) := by
  have hopen : skipBlanks ('\x7b' :: cs) = '\x7b' :: cs := rfl
  rw [readValue, hopen, ← readFields_skipBlanks]
  simp only
  split
  · rename_i heq
    rw [hcs] at heq
    exact absurd (List.cons.inj heq).1 hc
  · rfl

/-- **A written value is read back**, at any depth and whatever follows it. -/
theorem readBack_of_writable {j : Json} (hj : Writable j) : ReadBack j := by
  induction hj with
  | count n => exact readBack_count n
  | null =>
    rintro depth (_ | n) rest hrest hn
    · simp [write] at hn
    · rfl
  | bool b =>
    rintro depth (_ | n) rest hrest hn
    · cases b <;> simp [write] at hn
    · cases b <;> rfl
  | @text us hus =>
    rintro depth (_ | n) rest hrest hn
    · simp [write, writeText] at hn
    · have hopen (cs : List Char) : skipBlanks ('"' :: cs) = '"' :: cs := rfl
      rw [write, writeText, List.append_assoc, List.cons_append, readValue, hopen]
      simp only [List.singleton_append, readUnits_flatMap hus]
      rfl
  | @array items hitems ih =>
    rintro depth (_ | n) rest hrest hn
    · cases items <;> simp [write, bracketed, itemLines] at hn
    · cases items with
      | nil => rfl
      | cons v vs =>
        have htext : write depth (.array (v :: vs)) ++ rest = '[' ::
            (withCommas (itemLines (depth + 1) (v :: vs)) ++ (newLine depth ++ ']' :: rest)) := by
          simp [write, itemLines, bracketed]
        have hlines := readItems_lines (depth + 1) depth rest vs v n ih (by
          have hlength := congrArg List.length htext
          simp only [List.length_append, List.length_cons] at hlength ⊢
          omega)
        obtain ⟨c, t, hct, hblank, hc⟩ := write_head (hitems v List.mem_cons_self) (depth + 1)
        obtain ⟨after, hafter⟩ :=
          withCommas_cons (newLine (depth + 1) ++ write (depth + 1) v) (itemLines (depth + 1) vs)
        have hhead : skipBlanks (withCommas (itemLines (depth + 1) (v :: vs)) ++
            (newLine depth ++ ']' :: rest)) = c :: (t ++ after ++ (newLine depth ++ ']' :: rest)) := by
          rw [itemLines, hafter, hct, List.append_assoc, List.append_assoc, skipBlanks_newLine]
          simp [skipBlanks, hblank]
        rw [htext, readValue_items hhead hc, hlines]
        rfl
  | @object fields hfits hfields ih =>
    rintro depth (_ | n) rest hrest hn
    · rcases fields with _ | ⟨f, fs⟩ <;> simp [write, bracketed, fieldLines] at hn
    · rcases fields with _ | ⟨⟨name, v⟩, fs⟩
      · rfl
      · have htext : write depth (.object ((name, v) :: fs)) ++ rest = '\x7b' ::
            (withCommas (fieldLines (depth + 1) ((name, v) :: fs)) ++
              (newLine depth ++ '\x7d' :: rest)) := by
          simp [write, fieldLines, bracketed]
        have hlines := readFields_lines (depth + 1) depth rest fs (name, v) n hfits ih (by
          have hlength := congrArg List.length htext
          simp only [List.length_append, List.length_cons] at hlength ⊢
          omega)
        obtain ⟨after, hafter⟩ := withCommas_cons (newLine (depth + 1) ++ writeText name ++
          ':' :: ' ' :: write (depth + 1) v) (fieldLines (depth + 1) fs)
        have hhead : ∃ t, skipBlanks (withCommas (fieldLines (depth + 1) ((name, v) :: fs)) ++
              (newLine depth ++ '\x7d' :: rest)) = '"' :: t := by
          rw [fieldLines, hafter, writeText, List.append_assoc, List.append_assoc, List.append_assoc,
            skipBlanks_newLine]
          exact ⟨_, rfl⟩
        obtain ⟨t, ht⟩ := hhead
        rw [htext, readValue_fields ht (by decide), hlines]
        rfl

/-- **A written document is read back.** -/
theorem ofText?_write {j : Json} (hj : Writable j) (depth : ℕ) :
    ofText? (write depth j) = some j.reread := by
  have hread := readBack_of_writable hj depth (2 * (write depth j).length + 2) [] nofun (by omega)
  rw [List.append_nil] at hread
  rw [ofText?, hread]
  rfl

end Json
end KeyedRows
