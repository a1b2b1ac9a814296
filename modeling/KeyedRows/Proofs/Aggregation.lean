/-
# Groups are a partition

Records fall into the groups of those that are alike: their values under every
name to group by are of one kind and equal part by part. Since different values
never have one description (`Value.describedList_eq_iff`), no two groups are merged,
whatever their texts hold, and every record counts in exactly one group
(`sum_countP_eraseDupsBy`). The groups stand in the order in which their first records do
(`groupsOf_eq`).

Key definition: `Aggregation.alike`.
Key theorem: **`groups_partition_records`**.
-/
import KeyedRows.Aggregation
import KeyedRows.Proofs.Firsts
import KeyedRows.Proofs.OrderedMap
import KeyedRows.Proofs.Value.Described

namespace KeyedRows

/-! ### Groups -/

namespace Aggregation

variable (a : Aggregation)

/-- The records have the same values under all names to group by, an absent value
counting as null. -/
def alike (r s : Bins) : Bool := a.fields.all fun name => (r.read name).alike (s.read name)

/-- The description that decides on the group of a record. -/
def text (r : Bins) : List Char := Value.describedList (a.tuple r)

/-- **The descriptions of records are the same exactly if the records are alike.** -/
theorem alike_iff_text (r s : Bins) : a.alike r s = true ↔ a.text r = a.text s := by
  rw [text, text, Value.describedList_eq_iff, tuple, tuple, List.forall₂_map_left_iff,
    List.forall₂_map_right_iff, List.forall₂_same, alike, List.all_eq_true]

theorem foldl_addTo_cons : ∀ (records : List Bins) (g : Group) (gs : List Group),
    records.foldl (fun gs r => addTo (a.tuple r) (a.text r) gs) (g :: gs) =
      { g with size := g.size + records.countP fun r => g.text = a.text r } ::
        (records.filter fun r => g.text ≠ a.text r).foldl
          (fun gs r => addTo (a.tuple r) (a.text r) gs) gs
  | [], g, gs => by simp
  | r :: records, g, gs => by
    rw [List.foldl_cons, addTo]
    by_cases h : g.text = a.text r
    · rw [if_pos h, foldl_addTo_cons records]
      simp [h]
      omega
    · rw [if_neg h, foldl_addTo_cons records]
      simp [h]

theorem groupsOf_cons (r : Bins) (records : List Bins) : a.groupsOf (r :: records) =
    ⟨a.tuple r, a.text r, (r :: records).countP (a.alike r)⟩ ::
      a.groupsOf (records.filter fun s => a.alike s r = false) := by
  have hcount : (records.countP fun s => a.text r = a.text s) = records.countP (a.alike r) :=
    List.countP_congr fun s _ => by rw [decide_eq_true_eq, alike_iff_text]
  have hfilter : (records.filter fun s => a.text r ≠ a.text s) =
      records.filter fun s => a.alike s r = false :=
    List.filter_congr fun s _ => by
      rw [decide_eq_decide, same_eq_false_iff a.alike_iff_text, ne_comm]
  have hself : a.alike r r = true := (a.alike_iff_text r r).mpr rfl
  rw [← hfilter, List.countP_cons_of_pos hself, ← hcount, Nat.add_comm]
  exact a.foldl_addTo_cons records ⟨a.tuple r, a.text r, 1⟩ []

/-- **The groups are those of the first records of their kinds**, each with the
number of records alike. -/
theorem groupsOf_eq (records : List Bins) : a.groupsOf records =
    (records.eraseDupsBy a.alike).map fun r =>
      ⟨a.tuple r, a.text r, records.countP (a.alike r)⟩ := by
  induction records using eraseDupsBy_induction a.alike with
  | nil => rfl
  | cons r records ih =>
    rw [groupsOf_cons, ih, List.eraseDupsBy_cons, List.map_cons]
    refine congrArg _ (List.map_congr_left fun s hs => ?_)
    have hdiffer : a.alike s r = false := by
      simpa using (List.mem_filter.mp ((eraseDupsBy_sublist _).subset hs)).2
    rw [countP_cons_of_not_same a.alike_iff_text hdiffer]

/-! ### What a group yields -/

theorem filter_find? (r : Bins) (name : String) :
    (r.find? name).filter (!·.isNull) =
      if (r.read name).isNull then none else some (r.read name) := by
  rw [Bins.read]
  cases r.find? name with
  | none => rfl
  | some v => cases h : v.isNull <;> simp [h]

/-- Under each name stands the value of the record, unless it is null. -/
theorem lastUnder_named (r : Bins) (name : String) : ∀ fields : List String,
    OrderedMap.lastUnder name ((fields.zip (fields.map r.read)).filter fun e => !e.2.isNull) =
      if name ∈ fields then (r.find? name).filter (!·.isNull) else none
  | [] => rfl
  | n :: fields => by
    have ih := lastUnder_named r name fields
    rw [filter_find?] at ih ⊢
    rw [List.map_cons, List.zip_cons_cons, List.filter_cons]
    by_cases hname : name = n
    · subst hname
      cases hnull : (r.read name).isNull with
      | true => simp [hnull, ih]
      | false => split_ifs at ih <;> simp_all [OrderedMap.lastUnder]
    · cases (r.read n).isNull <;> simp [OrderedMap.lastUnder, ih, hname]

theorem find?_yielded (r : Bins) (n : ℕ) (name : String) :
    (a.yielded ⟨a.tuple r, a.text r, n⟩).find? name =
      if a.countAs = some name then some (.int64 (.ofNat n))
      else if name ∈ a.fields then (r.find? name).filter (!·.isNull) else none := by
  have hnamed := lastUnder_named r name a.fields
  rw [← OrderedMap.find?_ofList, ← tuple] at hnamed
  unfold yielded
  cases a.countAs with
  | none => simpa using hnamed
  | some counted =>
    have hcompare : compare name counted = .eq ↔ some counted = some name := by
      rw [Std.LawfulEqOrd.compare_eq_iff_eq, Option.some.injEq, eq_comm]
    simp only [OrderedMap.find?_insert, hcompare, hnamed]

/-- The number of records that a group yields under a name, if any. -/
def countIn (name : String) (out : Record) : Option ℤ := (out.bins.read name).toInt64?.map (·.toInt)

/-- **Groups are a partition of the records.** One record without a key is yielded for
each of the first records of their kinds, in their order. It holds the values of that
record under the names to group by, but those that are null, and the number of the
records alike under the name for it. Every record is alike to exactly one of the first
records, which stands before all others alike, so the numbers add up to the number of
records. -/
theorem groups_partition_records (records : List Bins) :
    let firsts := records.eraseDupsBy a.alike
    List.Forall₂ (fun first out => out.key = none ∧ ∀ name, out.bins.find? name =
        if a.countAs = some name then some (.int64 (.ofNat (records.countP (a.alike first))))
        else if name ∈ a.fields then (first.find? name).filter (!·.isNull) else none)
      firsts (a.apply records) ∧
    firsts.Sublist records ∧
    (∀ first ∈ firsts, ∃ before rest, records = before ++ first :: rest ∧
      ∀ r ∈ before, a.alike r first = false) ∧
    (∀ r ∈ records, ∃! first, first ∈ firsts ∧ a.alike first r = true) ∧
    (firsts.map fun first => records.countP (a.alike first)).sum = records.length ∧
    ∀ name, a.countAs = some name → records.length < 2 ^ 63 →
      ((a.apply records).filterMap (countIn name)).sum = records.length := by
  intro firsts
  have hsum := sum_countP_eraseDupsBy a.alike_iff_text records
  refine ⟨?_, eraseDupsBy_sublist records, fun first hfirst => ?_, fun r hr => ?_, hsum,
    fun name hname hlength => ?_⟩
  · rw [apply, groupsOf_eq, List.map_map, List.forall₂_map_right_iff, List.forall₂_same]
    exact fun r _ => ⟨rfl, a.find?_yielded r _⟩
  · exact first_of_mem_eraseDupsBy a.alike_iff_text hfirst
  · exact existsUnique_mem_eraseDupsBy a.alike_iff_text hr
  · have hcounts : (a.apply records).filterMap (countIn name) =
        firsts.map fun first => (records.countP (a.alike first) : ℤ) := by
      rw [apply, groupsOf_eq, List.map_map, List.filterMap_map, ← List.filterMap_eq_map]
      refine List.filterMap_congr fun first _ => ?_
      have hle : records.countP (a.alike first) ≤ records.length := List.countP_le_length
      simp [countIn, Bins.read, find?_yielded, hname, Value.toInt64?,
        Int64.toInt_ofNat_of_lt (hle.trans_lt hlength)]
    rw [hcounts, ← hsum, Nat.cast_list_sum, List.map_map]
    rfl

/-- A list of two texts, a text that has its description inside, and twice the absence
of a value, once by a null. -/
theorem descriptions_in_texts_stay_apart :
    let a : Aggregation := ⟨["name"], some "n"⟩
    let listed : Bins := .ofList [("name", .list [.text "x", .text "y"])]
    let texted : Bins := .ofList [("name", .text "List([Text(\"x\"), Text(\"y\")])")]
    let nulled : Bins := .ofList [("name", .null)]
    let records := [listed, {}, texted, nulled]
    let firsts := records.eraseDupsBy a.alike
    nulled ∈ records ∧ records.length < 2 ^ 63 ∧ firsts = [listed, {}, texted] ∧
      List.Forall₂ (fun first out => out.key = none ∧ ∀ name, out.bins.find? name =
          if a.countAs = some name then some (.int64 (.ofNat (records.countP (a.alike first))))
          else if name ∈ a.fields then (first.find? name).filter (!·.isNull) else none)
        firsts (a.apply records) ∧
      (∃! first, first ∈ firsts ∧ a.alike first nulled = true) ∧
      ((a.apply records).filterMap (countIn "n")).sum = 4 := by
  intro a listed texted nulled records firsts
  have hmem : nulled ∈ records := by simp [records]
  have hlength : records.length < 2 ^ 63 := by decide
  obtain ⟨hyields, -, -, hone, -, hsum⟩ := groups_partition_records a records
  exact ⟨hmem, hlength, by decide +kernel, hyields, hone nulled hmem, hsum "n" rfl hlength⟩

end Aggregation
end KeyedRows
