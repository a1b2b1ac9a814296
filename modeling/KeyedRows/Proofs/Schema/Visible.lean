/-
# What resolved columns show

What comes out of a column is the column itself, maybe with a type, or a field that
a wildcard observes (`comesOutOf_of_mem`). So columns that are no wildcards are shown
as they were projected. A wildcard shows the names that it observes, each once
(`mem_freshNames`), but none that another column of its table has, and that column
may be a hidden one. So a hidden column that is put beside a wildcard takes the field
of its name out of what the wildcard shows, and no more than that (`shown_resolve`).

Key definitions: `shown`, `Widened`, `hiddenBeside`, `ComesOutOf`.
Key theorem: **`hidden_columns_shown`**.
-/
import Mathlib
import KeyedRows.Schema.Discovery
import KeyedRows.Schema.Metadata

namespace KeyedRows

/-- What a reader is told of a column, apart from its type. -/
def Column.title (c : Column) : String × String := (c.name, c.displayLabel)

namespace Discovery

/-- What a reader sees of columns. -/
def shown (columns : List Column) : List Column := (ResultMetadata.ofColumns columns).visible

theorem shown_cons {c : Column} (hc : ¬ c.isHidden = true) (columns : List Column) :
    shown (c :: columns) = c :: shown columns := by
  simp [shown, ResultMetadata.ofColumns, ResultMetadata.visible, hc]

theorem shown_cons_hidden {c : Column} (hc : c.isHidden = true) (columns : List Column) :
    shown (c :: columns) = shown columns := by
  simp [shown, ResultMetadata.ofColumns, ResultMetadata.visible, hc]

/-- The second list is the first one with hidden columns put in at any places,
none of them a wildcard. -/
inductive Widened : List Column → List Column → Prop where
  | nil : Widened [] []
  | keep (c : Column) {columns wider : List Column} :
      Widened columns wider → Widened (c :: columns) (c :: wider)
  | hide (c : Column) {columns wider : List Column} :
      c.isHidden = true → c.isWildcard = false → Widened columns wider →
        Widened columns (c :: wider)

/-- The names of the hidden columns of a wildcard's table. -/
def hiddenBeside (columns : List Column) (wildcard : Column) : List String :=
  namesBeside (columns.filter Column.isHidden) wildcard

/-! ### Names that are seen first -/

theorem mem_freshNames {name : String} : ∀ {names seen : List String},
    name ∈ freshNames seen names ↔ name ∈ names ∧ name ∉ seen
  | [], seen => by simp [freshNames]
  | n :: ns, seen => by
    unfold freshNames
    by_cases hn : n ∈ seen
    · have hout : name = n → name ∈ seen := fun he => he ▸ hn
      rw [if_pos (by simpa using hn), mem_freshNames, List.mem_cons]
      tauto
    · have hin : name = n → name ∉ seen := fun he => he ▸ hn
      rw [if_neg (by simpa using hn), List.mem_cons, mem_freshNames, List.mem_cons, List.mem_cons]
      tauto

/-- With more names seen, these are missing and nothing else changes. -/
theorem freshNames_or {more : List String} : ∀ {names seen wider : List String},
    (∀ n, n ∈ wider ↔ n ∈ seen ∨ n ∈ more) →
      freshNames wider names = (freshNames seen names).filter fun n => !more.contains n
  | [], _, _, _ => rfl
  | n :: ns, seen, wider, h => by
    by_cases hseen : n ∈ seen
    · have hwider : n ∈ wider := (h n).mpr (.inl hseen)
      rw [freshNames, freshNames, if_pos (by simpa using hwider), if_pos (by simpa using hseen)]
      exact freshNames_or h
    · have hrest : ∀ m, m ∈ wider ∨ m = n ↔ (m = n ∨ m ∈ seen) ∨ m ∈ more := fun m => by
        rw [h m]
        tauto
      by_cases hmore : n ∈ more
      -- a name that was put in is seen on the left from here on, and filtered out on the right
      · have hwider : n ∈ wider := (h n).mpr (.inr hmore)
        have hsame : ∀ m, m ∈ wider ↔ m ∈ n :: seen ∨ m ∈ more := fun m => by
          rw [List.mem_cons, ← hrest m]
          exact ⟨.inl, fun hm => hm.elim id fun he => he ▸ hwider⟩
        rw [freshNames, freshNames, if_pos (by simpa using hwider), if_neg (by simpa using hseen),
          List.filter_cons_of_neg (by simpa using hmore)]
        exact freshNames_or hsame
      · have hwider : n ∉ wider := fun hn => ((h n).mp hn).elim hseen hmore
        have hsame : ∀ m, m ∈ n :: wider ↔ m ∈ n :: seen ∨ m ∈ more := fun m => by
          rw [List.mem_cons, List.mem_cons, ← hrest m]
          tauto
        rw [freshNames, freshNames, if_neg (by simpa using hwider), if_neg (by simpa using hseen),
          List.filter_cons_of_pos (by simpa using hmore)]
        exact congrArg (n :: ·) (freshNames_or hsame)

/-! ### Names beside a wildcard -/

variable {columns wider : List Column} {samplesOf : Column → List Bins} {reserved : List String}

theorem mem_namesBeside {w : Column} {name : String} : name ∈ namesBeside columns w ↔
    ∃ c ∈ columns, c.isWildcard = false ∧ tableOf c = tableOf w ∧ c.name = name := by
  simp [namesBeside, tableOf, and_assoc]

theorem Widened.subset (h : Widened columns wider) : columns ⊆ wider := by
  induction h with
  | nil => exact List.Subset.refl _
  | keep c _ ih => exact List.cons_subset_cons c ih
  | hide c _ _ _ ih => exact List.subset_cons_of_subset c ih

theorem Widened.mem_or (h : Widened columns wider) :
    ∀ d ∈ wider, d ∈ columns ∨ d.isHidden = true := by
  induction h with
  | nil => simp
  | keep c _ ih =>
    intro d hd
    rcases List.mem_cons.mp hd with rfl | hd
    · exact .inl List.mem_cons_self
    · exact (ih d hd).imp_left (List.mem_cons_of_mem c)
  | hide c hc _ _ ih =>
    intro d hd
    rcases List.mem_cons.mp hd with rfl | hd
    · exact .inr hc
    · exact ih d hd

/-- Beside a wildcard stand the names that stood there and those of hidden
columns. -/
theorem Widened.mem_namesBeside (h : Widened columns wider) (w : Column) (name : String) :
    name ∈ namesBeside wider w ↔ name ∈ namesBeside columns w ∨ name ∈ hiddenBeside wider w := by
  rw [hiddenBeside, Discovery.mem_namesBeside, Discovery.mem_namesBeside,
    Discovery.mem_namesBeside]
  constructor
  · rintro ⟨d, hd, hw, ht, hn⟩
    rcases h.mem_or d hd with hc | hc
    · exact .inl ⟨d, hc, hw, ht, hn⟩
    · exact .inr ⟨d, List.mem_filter.mpr ⟨hd, hc⟩, hw, ht, hn⟩
  · rintro (⟨d, hd, hw, ht, hn⟩ | ⟨d, hd, hw, ht, hn⟩)
    · exact ⟨d, h.subset hd, hw, ht, hn⟩
    · exact ⟨d, (List.mem_filter.mp hd).1, hw, ht, hn⟩

/-! ### What is shown -/

theorem shown_expand (samples : List Bins) (seen : List String) (w : Column) :
    shown (expand samples seen w) = expand samples seen w := by
  refine List.filter_eq_self.mpr fun d hd => ?_
  obtain ⟨name, -, rfl⟩ := List.mem_map.mp hd
  rfl

theorem mem_expand {samples : List Bins} {seen : List String} {w : Column} {name : String} :
    (∃ d ∈ expand samples seen w, d.name = name) ↔
      name ∈ samples.flatMap (·.keys) ∧ name ∉ seen := by
  simp [expand, mem_freshNames]

section

variable {c d : Column}

theorem resolveColumn_of_not_needsSample (hc : c.needsSample = false) (columns : List Column) :
    resolveColumn columns samplesOf reserved c = [c] := by
  simp [resolveColumn, hc]

theorem resolveColumn_undeclared (hw : c.isWildcard = false) (hneeds : c.needsSample = true)
    (columns : List Column) : resolveColumn columns samplesOf reserved c =
      [{ c with type := firstType (samplesOf c) c.name }] := by
  simp [resolveColumn, hw, hneeds]

theorem resolveColumn_wildcard (hw : c.isWildcard = true) (columns : List Column) :
    resolveColumn columns samplesOf reserved c =
      expand (samplesOf c) (namesBeside columns c ++ reserved) c := by
  simp [resolveColumn, Column.needsSample, hw]

/-- The second column comes out of the first, if that is resolved among columns. -/
inductive ComesOutOf (columns : List Column) (samplesOf : Column → List Bins)
    (reserved : List String) (c : Column) : Column → Prop where
  | declared : c.needsSample = false → ComesOutOf columns samplesOf reserved c c
  | undeclared : c.isWildcard = false → c.needsSample = true →
      ComesOutOf columns samplesOf reserved c { c with type := firstType (samplesOf c) c.name }
  | field {name : String} : c.isWildcard = true → name ∈ (samplesOf c).flatMap (·.keys) →
      name ∉ namesBeside columns c ++ reserved →
      ComesOutOf columns samplesOf reserved c
        { name, type := firstType (samplesOf c) name, schema := c.schema, table := c.table }

theorem comesOutOf_of_mem (h : d ∈ resolveColumn columns samplesOf reserved c) :
    ComesOutOf columns samplesOf reserved c d := by
  cases hw : c.isWildcard with
  | true =>
    rw [resolveColumn_wildcard hw] at h
    obtain ⟨name, hname, rfl⟩ := List.mem_map.mp h
    obtain ⟨hkey, hfresh⟩ := mem_freshNames.mp hname
    exact .field hw hkey hfresh
  | false =>
    cases hneeds : c.needsSample with
    | false =>
      rw [resolveColumn_of_not_needsSample hneeds, List.mem_singleton] at h
      subst h
      exact .declared hneeds
    | true =>
      rw [resolveColumn_undeclared hw hneeds, List.mem_singleton] at h
      subst h
      exact .undeclared hw hneeds

end

/-- A column that is no wildcard is resolved alone, and stays as visible as it
is. -/
theorem resolveColumn_of_not_wildcard (samplesOf : Column → List Bins) (reserved : List String)
    {c : Column} (hc : c.isWildcard = false) :
    ∃ t, ∀ columns, resolveColumn columns samplesOf reserved c = [{ c with type := t }] := by
  cases hneeds : c.needsSample with
  | false => exact ⟨c.type, resolveColumn_of_not_needsSample hneeds⟩
  | true => exact ⟨firstType (samplesOf c) c.name, resolveColumn_undeclared hc hneeds⟩

/-- Every column but a wildcard is still there. -/
theorem resolve_keeps {c : Column} (hc : c ∈ columns) (hw : c.isWildcard = false) :
    ∃ type, { c with type } ∈ resolve columns samplesOf reserved := by
  obtain ⟨type, htype⟩ := resolveColumn_of_not_wildcard samplesOf reserved hw
  refine ⟨type, List.mem_flatMap.mpr ⟨c, hc, ?_⟩⟩
  rw [htype]
  exact List.mem_singleton.mpr rfl

/-- Columns of which none is a wildcard are shown under their names and labels,
whatever their types become. -/
theorem shown_resolve_titles (all : List Column) : ∀ {columns : List Column},
    (∀ c ∈ columns, c.isWildcard = false) →
      (shown (columns.flatMap (resolveColumn all samplesOf reserved))).map Column.title =
        (shown columns).map Column.title
  | [], _ => rfl
  | c :: cs, h => by
    obtain ⟨t, ht⟩ := resolveColumn_of_not_wildcard samplesOf reserved (h c List.mem_cons_self)
    have ih := shown_resolve_titles all fun d hd => h d (List.mem_cons_of_mem c hd)
    rw [List.flatMap_cons, ht, List.singleton_append]
    by_cases hc : c.isHidden = true
    · have hc' : Column.isHidden { c with type := t } = true := hc
      rw [shown_cons_hidden hc', shown_cons_hidden hc, ih]
    · have hc' : ¬ Column.isHidden { c with type := t } = true := hc
      rw [shown_cons hc', shown_cons hc, List.map_cons, List.map_cons, ih]
      rfl

/-- The hidden columns that are put in show nothing themselves. -/
theorem Widened.shown_flatMap (h : Widened columns wider) (all : List Column) :
    shown (wider.flatMap (resolveColumn all samplesOf reserved)) =
      columns.flatMap fun c => shown (resolveColumn all samplesOf reserved c) := by
  have happend : ∀ l r, shown (l ++ r) = shown l ++ shown r := fun l r => List.filter_append ..
  induction h with
  | nil => rfl
  | keep c _ ih => rw [List.flatMap_cons, List.flatMap_cons, happend, ih]
  | hide c hc hw _ ih =>
    obtain ⟨t, ht⟩ := resolveColumn_of_not_wildcard samplesOf reserved hw
    have hc' : Column.isHidden { c with type := t } = true := hc
    have hnone : shown [{ c with type := t }] = [] := shown_cons_hidden hc' []
    rw [List.flatMap_cons, happend, ht, hnone, ih, List.nil_append]

/-- The field stays shown beside these hidden columns. -/
def staysShown (wider : List Column) (c field : Column) : Bool :=
  !(c.isWildcard && (hiddenBeside wider c).contains field.name)

/-- What a column shows in the longer list is what it showed, but for the fields
of a wildcard that a hidden column of its table has the name of. -/
theorem Widened.shown_resolveColumn (h : Widened columns wider) (c : Column) :
    shown (resolveColumn wider samplesOf reserved c) =
      (shown (resolveColumn columns samplesOf reserved c)).filter (staysShown wider c) := by
  cases hw : c.isWildcard with
  | false =>
    obtain ⟨t, ht⟩ := resolveColumn_of_not_wildcard samplesOf reserved hw
    rw [ht, ht]
    exact (List.filter_eq_self.mpr fun d _ => by simp [staysShown, hw]).symm
  | true =>
    have hseen : ∀ n, n ∈ namesBeside wider c ++ reserved ↔
        n ∈ namesBeside columns c ++ reserved ∨ n ∈ hiddenBeside wider c := fun n => by
      rw [List.mem_append, List.mem_append, h.mem_namesBeside]
      tauto
    rw [resolveColumn_wildcard hw, resolveColumn_wildcard hw, shown_expand, shown_expand, expand,
      expand, List.filter_map, freshNames_or hseen]
    refine congrArg _ (List.filter_congr fun n _ => ?_)
    simp [staysShown, hw]

/-- **What a longer list shows**: every column shows what it did, less the fields
of a wildcard that hidden columns of its table have the names of. -/
theorem Widened.shown_resolve (h : Widened columns wider) :
    shown (resolve wider samplesOf reserved) = columns.flatMap fun c =>
      (shown (resolveColumn columns samplesOf reserved c)).filter (staysShown wider c) := by
  rw [resolve, h.shown_flatMap]
  exact List.flatMap_congr fun c _ => h.shown_resolveColumn c

/-- Filtering part by part leaves the whole as it is only if it leaves every part
as it is. -/
theorem flatMap_filter_eq_iff {α β : Type} {p : α → β → Bool} {f : α → List β} :
    ∀ {l : List α}, l.flatMap (fun a => (f a).filter (p a)) = l.flatMap f ↔
      ∀ a ∈ l, ∀ b ∈ f a, p a b = true
  | [] => by simp
  | a :: l => by
    have hrest := flatMap_filter_eq_iff (p := p) (f := f) (l := l)
    rw [List.flatMap_cons, List.flatMap_cons, List.forall_mem_cons, ← hrest,
      ← List.filter_eq_self]
    constructor
    · intro h
      have hsub : (l.flatMap fun a => (f a).filter (p a)).length ≤ (l.flatMap f).length := by
        rw [List.length_flatMap, List.length_flatMap]
        exact List.sum_le_sum fun a _ => List.length_filter_le (p a) (f a)
      have hhead : ((f a).filter (p a)).length ≤ (f a).length := List.length_filter_le ..
      have hlen := congrArg List.length h
      rw [List.length_append, List.length_append] at hlen
      exact List.append_inj h (by omega)
    · rintro ⟨hhead, htail⟩
      rw [hhead, htail]

/-- Everything that a column shows stays shown, if no field that it shows as a
wildcard has the name of a hidden column of its table. -/
theorem forall_staysShown_iff (c : Column) :
    (∀ d ∈ shown (resolveColumn columns samplesOf reserved c), staysShown wider c d = true) ↔
      (c.isWildcard = true → ∀ name ∈ (samplesOf c).flatMap (·.keys),
        name ∉ namesBeside columns c ++ reserved → name ∉ hiddenBeside wider c) := by
  cases hw : c.isWildcard with
  | false => simp [staysShown, hw]
  | true =>
    have hstays : ∀ d, staysShown wider c d = true ↔ d.name ∉ hiddenBeside wider c := fun d => by
      simp [staysShown, hw]
    simp only [resolveColumn_wildcard hw, shown_expand, hstays, forall_const]
    constructor
    · intro h name hname hout
      obtain ⟨d, hd, rfl⟩ := mem_expand.mpr ⟨hname, hout⟩
      exact h d hd
    · intro h d hd
      obtain ⟨hname, hout⟩ := mem_expand.mp ⟨d, hd, rfl⟩
      exact h d.name hname hout

/-- **What is shown beside hidden columns.** Put in at any places, they show
nothing themselves and change nothing that is shown, but that every wildcard
loses the fields that have the name of a hidden column of its table. So all
stays as it was exactly if no wildcard shows such a field. -/
theorem hidden_columns_shown (columns wider : List Column) (samplesOf : Column → List Bins)
    (reserved : List String) (h : Widened columns wider) :
    (shown (resolve wider samplesOf reserved) = columns.flatMap fun c =>
      (shown (resolveColumn columns samplesOf reserved c)).filter (staysShown wider c)) ∧
    (shown (resolve wider samplesOf reserved) = shown (resolve columns samplesOf reserved) ↔
      ∀ w ∈ columns, w.isWildcard = true → ∀ name ∈ (samplesOf w).flatMap (·.keys),
        name ∉ namesBeside columns w ++ reserved → name ∉ hiddenBeside wider w) := by
  have hnarrow : shown (resolve columns samplesOf reserved) =
      columns.flatMap fun c => shown (resolveColumn columns samplesOf reserved c) :=
    List.filter_flatMap ..
  refine ⟨h.shown_resolve, ?_⟩
  rw [h.shown_resolve, hnarrow, flatMap_filter_eq_iff]
  exact forall₂_congr fun c _ => forall_staysShown_iff c

/-- A join key of another table is put in beside a wildcard whose table has a
field of the same name. -/
theorem key_of_other_table_changes_nothing :
    let everyone : Column := { name := "*", schema := "test", table := "people" }
    let key : Column := { name := "id", role := .hidden, schema := "test", table := "pets" }
    let people : List Bins := [.ofList [("id", .int64 1), ("name", .text "Adam")]]
    let columns := [everyone]
    let wider := [key, everyone]
    Widened columns wider ∧
      (∀ w ∈ columns, w.isWildcard = true → ∀ name ∈ people.flatMap (·.keys),
        name ∉ namesBeside columns w ++ ["PK"] → name ∉ hiddenBeside wider w) ∧
      shown (resolve wider (fun _ => people) ["PK"]) =
        shown (resolve columns (fun _ => people) ["PK"]) := by
  intro everyone key people columns wider
  have hwidened : Widened columns wider := .hide key rfl rfl (.keep everyone .nil)
  have hfree : ∀ w ∈ columns, w.isWildcard = true → ∀ name ∈ people.flatMap (·.keys),
      name ∉ namesBeside columns w ++ ["PK"] → name ∉ hiddenBeside wider w := by
    decide +kernel
  exact ⟨hwidened, hfree,
    (hidden_columns_shown columns wider (fun _ => people) ["PK"] hwidened).2.mpr hfree⟩

/-- A hidden join key of the wildcard's own table takes the field of its name out
of what is shown. -/
theorem hidden_key_leaves_wildcard :
    let everyone : Column := { name := "*", schema := "test", table := "people" }
    let key : Column := { name := "id", role := .hidden, schema := "test", table := "people" }
    let people : List Bins := [.ofList [("id", .int64 1), ("name", .text "Adam")]]
    Widened [everyone] [everyone, key] ∧
      (shown (resolve [everyone] (fun _ => people) [])).map (·.name) = ["id", "name"] ∧
      (shown (resolve [everyone, key] (fun _ => people) [])).map (·.name) = ["name"] := by
  intro everyone key people
  exact ⟨.keep everyone (.hide key rfl rfl .nil), by decide +kernel, by decide +kernel⟩

end Discovery
end KeyedRows
