/-
# Settings as documents

Settings are saved as a JSON object with a field for each of them. Reading
accepts an object, in which a field may be missing and may not stand twice,
or an array of the values in the order of the fields, which may end early.
Unknown fields do not count. The special fields are given both or not at all.

Key definitions: `Settings.toJson`, `Settings.save`, `Settings.ofJson?`,
`Settings.load`.
-/
import KeyedRows.Json.Printer
import KeyedRows.Json.Reader
import KeyedRows.Settings.Basic

namespace KeyedRows

/-- A text as a document. -/
def Json.ofString (s : String) : Json := .text (s.toList.map .char)

/-- A 64-bit count as a document reads it. -/
def Json.count? (j : Json) : Option UInt64 :=
  match j.natural? with
  | some n => if n < UInt64.size then some (UInt64.ofNat n) else none
  | none => none

/-- A field name as a document writes it. -/
def fieldName (s : String) : List TextUnit := s.toList.map .char

namespace SpecialFields

def toJson (f : SpecialFields) : Json :=
  .object [(fieldName "pk", .bool f.key), (fieldName "pk_digest", .bool f.digest)]

/-- What has been read so far. -/
structure Draft where
  key : Option Bool := none
  digest : Option Bool := none

/-- One field of an object; none may stand twice. -/
def Draft.field (p : Draft) (name : List TextUnit) (v : Json) : Option Draft := do
  let name := String.ofList (← joinUnits? name)
  if name = "pk" then
    if p.key.isSome then none else return { p with key := some (← v.bool?) }
  else if name = "pk_digest" then
    if p.digest.isSome then none else return { p with digest := some (← v.bool?) }
  else return p

def ofJson? : Json → Option SpecialFields
  | .object fields => do
    let p ← fields.foldlM (fun (p : Draft) e => p.field e.1 e.2) {}
    return ⟨← p.key, ← p.digest⟩
  | .array [key, digest] => do return ⟨← key.bool?, ← digest.bool?⟩
  | _ => none

end SpecialFields

namespace Settings

def toJson (s : Settings) : Json :=
  .object [
    (fieldName "namespace", .ofString s.space),
    (fieldName "primary_key_column", .ofString s.keyColumn),
    (fieldName "digest_column", .ofString s.digestColumn),
    (fieldName "special_fields", s.special.toJson),
    (fieldName "sample_limit", .number (Nat.toDigits 10 s.sampleLimit.toNat))]

/-- The text under which settings are saved. -/
def save (s : Settings) : String := String.ofList (s.toJson.write 0)

/-- What has been read so far. -/
structure Draft where
  space : Option String := none
  keyColumn : Option String := none
  digestColumn : Option String := none
  special : Option SpecialFields := none
  sampleLimit : Option UInt64 := none

/-- What was read, the defaults for the rest. -/
def Draft.complete (p : Draft) : Settings :=
  let d : Settings := {}
  ⟨p.space.getD d.space, p.keyColumn.getD d.keyColumn, p.digestColumn.getD d.digestColumn,
    p.special.getD d.special, p.sampleLimit.getD d.sampleLimit⟩

/-- One field of an object; none may stand twice. -/
def Draft.field (p : Draft) (name : List TextUnit) (v : Json) : Option Draft := do
  let name := String.ofList (← joinUnits? name)
  if name = "namespace" then
    if p.space.isSome then none else return { p with space := some (← v.string?) }
  else if name = "primary_key_column" then
    if p.keyColumn.isSome then none else return { p with keyColumn := some (← v.string?) }
  else if name = "digest_column" then
    if p.digestColumn.isSome then none else return { p with digestColumn := some (← v.string?) }
  else if name = "special_fields" then
    if p.special.isSome then none
    else return { p with special := some (← SpecialFields.ofJson? v) }
  else if name = "sample_limit" then
    if p.sampleLimit.isSome then none else return { p with sampleLimit := some (← v.count?) }
  else return p

/-- The fields in their order, from the first one on. -/
def Draft.ofItems? : List Json → Option Draft
  | [] => some {}
  | [a] => do return { space := ← a.string? }
  | [a, b] => do return { space := ← a.string?, keyColumn := ← b.string? }
  | [a, b, c] => do
    return { space := ← a.string?, keyColumn := ← b.string?, digestColumn := ← c.string? }
  | [a, b, c, d] => do
    return { space := ← a.string?, keyColumn := ← b.string?, digestColumn := ← c.string?,
             special := ← SpecialFields.ofJson? d }
  | [a, b, c, d, e] => do
    return { space := ← a.string?, keyColumn := ← b.string?, digestColumn := ← c.string?,
             special := ← SpecialFields.ofJson? d, sampleLimit := ← e.count? }
  | _ => none

def ofJson? : Json → Option Settings
  | .object fields =>
    (fields.foldlM (fun (p : Draft) e => p.field e.1 e.2) {}).map Draft.complete
  | .array items => (Draft.ofItems? items).map Draft.complete
  | _ => none

/-- The settings that a text saves, if they are valid. -/
def load (text : String) : Except Error Settings :=
  match (Json.ofText? text.toList).bind ofJson? with
  | some s => s.validate
  | none => .error (.malformed "no settings")

end Settings
end KeyedRows
