import AnnotatedSql.Parameter.Binding
import AnnotatedSql.Schema.Encoding

/-!
# Encoding of parameters

How catalogs write the way in which the parameters of a query are bound, and an entry of its parameter
table.
-/

namespace AnnotatedSql

namespace BindingStyle

/-- The style as catalogs write it. -/
def encode : BindingStyle → Json
  | implicit => .object [⟨"kind", .string "implicit"⟩]
  | explicitList names => DataType.encodedAs "explicit_list" (.array (names.map .string))
  | positionalOptional (.count count) =>
    DataType.encodedAs "positional_optional" (.object [⟨"count", .number count⟩])
  | positionalOptional (.named name) =>
    DataType.encodedAs "positional_optional" (.object [⟨"named", .string name⟩])

end BindingStyle

namespace ParamKey

/-- The key as an object that says of which kind it is. -/
def encode : ParamKey → Json
  | positional number => .object [⟨"positional", .number number⟩]
  | named name => .object [⟨"named", .string name⟩]

end ParamKey

namespace Parameter

/-- The parameter with the owned type that holds its value. -/
def encode (parameter : Parameter) : Json :=
  .object [
    ⟨"key", parameter.key.encode⟩,
    ⟨"name", .string parameter.name⟩,
    ⟨"slot", .number parameter.slot⟩,
    ⟨"declared", .bool parameter.declared⟩,
    ⟨"optional", .bool parameter.optional⟩,
    ⟨"type_hint", Json.ofOption (fun hint => .object [⟨"name", .string hint.text⟩]) parameter.hint⟩,
    ⟨"type", parameter.type.encode⟩,
    ⟨"rust_type", Json.ofOption .string parameter.type.rustType?⟩,
    ⟨"is_copy", .bool parameter.type.isCopy⟩]

end Parameter

end AnnotatedSql
