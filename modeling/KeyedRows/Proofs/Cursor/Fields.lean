/-
# The fields of a row

A label means a field by the columns of the cursor. A wildcard passes every
label through, and columns that are labelled by their names mean these names
(`resolveLabel_projects`). The field is what the record stores under the name,
unless the record shows its key or its digest in that place (`Shadowed`).

Key definitions: `Shadowed`, `Projects`.
-/
import KeyedRows.Proofs.Cursor.States
import KeyedRows.Proofs.Cursor.Visits

namespace KeyedRows

/-- A record shows its key or its digest under this name, and not what is stored
there. -/
def Shadowed (settings : Settings) (name : String) (role : ColumnRole) : Prop :=
  (name = settings.keyColumn ∧ (settings.special.key = true ∨ role = .primaryKey)) ∨
    (name = settings.digestColumn ∧ (settings.special.digest = true ∨ role = .primaryKey))

/-- The columns show the fields of these names: by a wildcard, or one by one
under their names. -/
def Projects (names : List String) (columns : List Column) : Prop :=
  (∃ wildcard : Column, columns = [wildcard] ∧ wildcard.isWildcard = true) ∨
    (columns.map (·.name) = names ∧ ∀ c ∈ columns, c.displayLabel = c.name)

namespace RecordCursor

variable {settings : Settings} {name : String} {role : ColumnRole}

/-- Where neither the key nor the digest is shown, the stored field is. -/
theorem fieldOf_stored (h : ¬ Shadowed settings name role) (r : Record) :
    fieldOf settings r name role = r.bins.read name := by
  obtain ⟨hkey, hdigest⟩ := not_or.mp h
  have hnokey : (name == settings.keyColumn &&
      (settings.special.key || role == .primaryKey)) = false := by
    rw [Bool.eq_false_iff]
    simpa using hkey
  have hnodigest : (name == settings.digestColumn &&
      (settings.special.digest || role == .primaryKey)) = false := by
    rw [Bool.eq_false_iff]
    simpa using hdigest
  unfold fieldOf
  cases r.key with
  | none => rfl
  | some key => simp only [hnokey, hnodigest, Bool.false_eq_true, if_false]

/-- A shown key stands in the key column. -/
theorem fieldOf_keyColumn (h : settings.special.key = true) {r : Record} {key : Key}
    (hr : r.key = some key) (role : ColumnRole) :
    fieldOf settings r settings.keyColumn role = key.user.toValue := by
  simp [fieldOf, hr, h]

/-- A wildcard passes every label that no other column has. -/
theorem resolveLabel_wildcard {wildcard : Column} (h : wildcard.isWildcard = true)
    (label : String) : resolveLabel [wildcard] label = .ok (label, .data) := by
  have hany : [wildcard].any Column.isWildcard = true := by simpa using h
  unfold resolveLabel
  rw [hany, if_pos rfl]
  by_cases hlabel : (wildcard.displayLabel == label) = true
  · simp [hlabel, h]
  · by_cases hname : (wildcard.name == label) = true
    · simp [hlabel, hname, h]
    · simp [hlabel, hname]

/-- Columns that are labelled by their names mean their names. -/
theorem resolveLabel_named {columns : List Column} (h : ∀ c ∈ columns, c.displayLabel = c.name)
    {name : String} (hname : name ∈ columns.map (·.name)) :
    ∃ role, resolveLabel columns name = .ok (name, role) := by
  obtain ⟨c, hc, hcname⟩ := List.mem_map.mp hname
  have hsome : (columns.find? (·.displayLabel == name)).isSome = true :=
    List.find?_isSome.mpr ⟨c, hc, by simp [h c hc, hcname]⟩
  obtain ⟨d, hd⟩ := Option.isSome_iff_exists.mp hsome
  have hmem : d ∈ columns := List.mem_of_find?_eq_some hd
  have hlabel : d.displayLabel = name := by simpa using List.find?_some hd
  have hdname : d.name = name := by rw [← h d hmem, hlabel]
  unfold resolveLabel
  rw [hd, Option.some_or]
  by_cases hw : d.isWildcard = true
  · have hany : columns.any Column.isWildcard = true := List.any_eq_true.mpr ⟨d, hmem, hw⟩
    exact ⟨.data, by simp [hw, hany]⟩
  · exact ⟨d.role, by simp [hw, hdname]⟩

/-- **Columns that project names mean each of them.** -/
theorem resolveLabel_projects {names : List String} {columns : List Column}
    (h : Projects names columns) {name : String} (hname : name ∈ names) :
    ∃ role, resolveLabel columns name = .ok (name, role) := by
  rcases h with ⟨wildcard, rfl, hw⟩ | ⟨hnames, hlabels⟩
  · exact ⟨.data, resolveLabel_wildcard hw name⟩
  · exact resolveLabel_named hlabels (hnames ▸ hname)

/-- What a cursor reads under a label is the field that the label means. -/
theorem reading_of_resolveLabel {columns : List Column} {label : String}
    (h : resolveLabel columns label = .ok (name, role)) (r : Record) :
    reading columns settings r label = .ok (fieldOf settings r name role) := by
  rw [reading, h]
  rfl

end RecordCursor

/-! ### Nulls -/

/-- A getter that answers notes whether the value was null. -/
theorem Cursor.wasNull_of_getObject {s : Cursor × Client} {label : String} {v : Value}
    (h : (CursorCall.getObject label).answer s = .ok v) :
    ∃ t, RowCursor.getObject label s = .ok v t ∧ (RowCursor.state t.1).wasNull = v.isNull := by
  have hstate := TrackedCursor.state_getObject label s
  cases hrun : (CursorCall.getObject label).run s with
  | error e t =>
    rw [CursorCall.answer_error hrun] at h
    cases h
  | ok w t =>
    rw [CursorCall.answer_ok hrun] at h
    cases h
    rw [CursorCall.after_ok hrun, CursorCall.answer_ok hrun] at hstate
    exact ⟨t, hrun, congrArg CursorState.wasNull hstate⟩

end KeyedRows
