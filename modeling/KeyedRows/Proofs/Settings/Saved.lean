/-
# Saved settings

The document of settings is read back (`Json.ofText?_write`), and from it the
settings themselves, whatever characters their names have and whatever count the
sample limit is (`Settings.ofJson?_reread`). Saving checks nothing and loading
does, so settings that are saved are loaded exactly if they are valid.

Key theorem: **`saved_settings_reload`**.
-/
import Mathlib
import KeyedRows.Proofs.Json.ReadBack
import KeyedRows.Settings.Document

namespace KeyedRows

open Json (Writable)

namespace Json

theorem fits_char (s : String) : ∀ u ∈ s.toList.map TextUnit.char, u.Fits := by
  intro u hu
  obtain ⟨c, -, rfl⟩ := List.mem_map.mp hu
  trivial

theorem writable_ofString (s : String) : Writable (ofString s) := .text (fits_char s)

/-- A string is read back, whatever its characters. -/
theorem string?_reread (s : String) : (ofString s).reread.string? = some s := by
  rw [ofString, reread, string?, joinUnits?_reread, Option.map_some, String.ofList_toList]

/-- A 64-bit count is read back. -/
theorem count?_toDigits (n : UInt64) : (number (Nat.toDigits 10 n.toNat)).count? = some n := by
  have hnatural : (number (Nat.toDigits 10 n.toNat)).natural? = some n.toNat :=
    Number.natural?_toDigits n.toNat
  rw [count?, hnatural]
  simp only [n.toNat_lt_size, if_true, UInt64.ofNat_toNat]

end Json

/-- A field name is read back. -/
theorem joinUnits?_fieldName (s : String) :
    joinUnits? ((fieldName s).map .reread) = some s.toList := joinUnits?_reread s.toList

namespace SpecialFields

theorem writable_toJson (f : SpecialFields) : Writable f.toJson := by
  refine .object ?_ ?_ <;> simp only [List.forall_mem_cons]
  · exact ⟨Json.fits_char _, Json.fits_char _, nofun⟩
  · exact ⟨.bool _, .bool _, nofun⟩

theorem ofJson?_reread (f : SpecialFields) : ofJson? f.toJson.reread = some f := by
  simp only [toJson, Json.reread, Json.rereadFields, ofJson?, List.foldlM_cons, List.foldlM_nil,
    Draft.field, joinUnits?_fieldName, Json.bool?]
  rfl

end SpecialFields

namespace Settings

theorem writable_toJson (s : Settings) : Writable s.toJson := by
  refine .object ?_ ?_ <;> simp only [List.forall_mem_cons]
  · exact ⟨Json.fits_char _, Json.fits_char _, Json.fits_char _, Json.fits_char _,
      Json.fits_char _, nofun⟩
  · exact ⟨Json.writable_ofString _, Json.writable_ofString _, Json.writable_ofString _,
      s.special.writable_toJson, .count _, nofun⟩

/-- **Settings are read back from their document**, field by field. -/
theorem ofJson?_reread (s : Settings) : ofJson? s.toJson.reread = some s := by
  simp only [toJson, Json.reread, Json.rereadFields, ofJson?, List.foldlM_cons, List.foldlM_nil,
    Draft.field, joinUnits?_fieldName, Json.string?_reread, Json.count?_toDigits,
    SpecialFields.ofJson?_reread]
  rfl

/-- Settings that are saved are loaded if they are valid, else refused. -/
theorem load_save (s : Settings) : load s.save = s.validate := by
  rw [load, save, String.toList_ofList, Json.ofText?_write (writable_toJson s), Option.bind_some,
    ofJson?_reread]

theorem validate_eq (s : Settings) : s.validate =
    if s.keyColumn = "" then .error (.settings "primary key column name must not be empty")
    else if s.sampleLimit = 0 then .error (.settings "sample limit must be positive")
    else .ok s := by
  simp only [validate, String.isEmpty_iff]

end Settings

/-- **Saved settings are loaded exactly if they are valid.** Whatever characters the
names have and whatever count the sample limit is, the text under which settings are
saved is loaded as the same settings if the key column has a name and the sample limit
is positive, and is refused as settings that are not valid if not. -/
theorem saved_settings_reload (s : Settings) :
    (Settings.load s.save = .ok s ↔ s.keyColumn ≠ "" ∧ 0 < s.sampleLimit) ∧
      ((∃ text, Settings.load s.save = .error (.settings text)) ↔
        ¬ (s.keyColumn ≠ "" ∧ 0 < s.sampleLimit)) := by
  rw [Settings.load_save, Settings.validate_eq]
  have hpositive : 0 < s.sampleLimit ↔ s.sampleLimit ≠ 0 := by
    simp [UInt64.lt_iff_toNat_lt, ← UInt64.toNat_inj, Nat.pos_iff_ne_zero]
  rw [hpositive]
  by_cases hname : s.keyColumn = ""
  · simp [hname]
  · by_cases hlimit : s.sampleLimit = 0
    · simp [hname, hlimit]
    · simp [hname, hlimit]

end KeyedRows
