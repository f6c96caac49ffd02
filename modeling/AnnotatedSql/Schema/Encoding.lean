import AnnotatedSql.Json.Value
import AnnotatedSql.Schema.DataType

/-!
# Encoding of data types

How catalogs write a data type: an object with its `kind`, and under `of` what the kind needs.
-/

namespace AnnotatedSql

namespace DataType

open Json

/-- An object that names the kind of a type and what it is of. -/
def encodedAs (kind : String) (content : Json) : Json :=
  .object [⟨"kind", .string kind⟩, ⟨"of", content⟩]

mutual

/-- The type as catalogs write it. -/
def encode : DataType → Json
  | scalar kind => encodedAs "scalar" (.string kind.sqlName)
  | composite name fields =>
    encodedAs "composite"
      (.object [⟨"name", .string name⟩, ⟨"fields", .array (encodeFields fields)⟩])
  | enumeration name variants =>
    encodedAs "enum" (.object [⟨"name", .string name⟩, ⟨"variants", .array (variants.map .string)⟩])
  | array element => encodedAs "array" element.encode
  | unresolved => .object [⟨"kind", .string "unresolved"⟩]

/-- The fields of a composite, in order. -/
def encodeFields : List (Field DataType) → List Json
  | [] => []
  | ⟨name, type⟩ :: fields =>
    .object [⟨"name", .string name⟩, ⟨"type", type.encode⟩] :: encodeFields fields

end

end DataType

end AnnotatedSql
