/-
# Settings

How statements are executed: the default namespace, the names of the two
columns that show a record's key and its digest, whether they are shown, and
how many records type discovery reads.

Key definitions: `SpecialFields`, `Settings`, `Settings.validate`,
`SpecialFields.ofText`.
-/
import KeyedRows.Error
import KeyedRows.Text.Blank

namespace KeyedRows

/-- Which of the fields that come from the key a record shows. -/
structure SpecialFields where
  key : Bool := true
  digest : Bool := true
deriving DecidableEq, Inhabited

structure Settings where
  space : String := "test"
  keyColumn : String := "PK"
  digestColumn : String := "PK_DIGEST"
  special : SpecialFields := {}
  sampleLimit : UInt64 := 100
deriving DecidableEq, Inhabited

namespace SpecialFields

/-- The fields with one more of them shown. -/
def withField (f : SpecialFields) (name : String) : Except Error SpecialFields :=
  if name = "pk" then .ok { f with key := true }
  else if name = "pk_digest" then .ok { f with digest := true }
  else .error (.settings s!"unknown special field '{name}'")

/-- The names in a text with commas between them, without blanks around them
and in lower case. -/
def names (text : String) : List String :=
  ((text.splitOn ",").map fun part =>
    String.ofList ((Text.trim part.toList).map Char.toLower)).filter (!·.isEmpty)

/-- The fields that a text names, and no others. -/
def ofText (text : String) : Except Error SpecialFields :=
  (names text).foldlM withField ⟨false, false⟩

end SpecialFields

/-- Settings must name a key column and let discovery read a record. -/
def Settings.validate (s : Settings) : Except Error Settings :=
  if s.keyColumn.isEmpty then .error (.settings "primary key column name must not be empty")
  else if s.sampleLimit = 0 then .error (.settings "sample limit must be positive")
  else .ok s

end KeyedRows
