import AnnotatedSql.Text.Line
import AnnotatedSql.Text.Word

/-!
# Scalar types

The base types of the database, their names in SQL and the Rust types that hold their values.
-/

namespace AnnotatedSql

/-- A base type. -/
inductive Scalar
  | bool
  /-- The one-byte type `"char"`. -/
  | char
  | int2 | int4 | int8 | float4 | float8 | numeric
  | text | varchar | bytea | uuid | json | jsonb
  | date | time | timestamp | timestamptz
  | inet | macaddr
  deriving DecidableEq, Repr

namespace Scalar

/-- The canonical SQL name. -/
def sqlName : Scalar → String
  | bool => "bool"
  | char => "char"
  | int2 => "int2"
  | int4 => "int4"
  | int8 => "int8"
  | float4 => "float4"
  | float8 => "float8"
  | numeric => "numeric"
  | text => "text"
  | varchar => "varchar"
  | bytea => "bytea"
  | uuid => "uuid"
  | json => "json"
  | jsonb => "jsonb"
  | date => "date"
  | time => "time"
  | timestamp => "timestamp"
  | timestamptz => "timestamptz"
  | inet => "inet"
  | macaddr => "macaddr"

/-- Every spelling of a base type in small letters, with the type it names. -/
def spellings : List (String × Scalar) := [
  ("bool", bool), ("boolean", bool),
  ("char", char), ("\"char\"", char),
  ("int2", int2), ("smallint", int2), ("smallserial", int2),
  ("int4", int4), ("int", int4), ("integer", int4), ("serial", int4),
  ("int8", int8), ("bigint", int8), ("bigserial", int8),
  ("float4", float4), ("real", float4),
  ("float8", float8), ("double precision", float8),
  ("numeric", numeric), ("decimal", numeric),
  ("text", text),
  ("varchar", varchar), ("character varying", varchar),
  ("bytea", bytea), ("uuid", uuid), ("json", json), ("jsonb", jsonb),
  ("date", date), ("time", time), ("timestamp", timestamp), ("timestamptz", timestamptz),
  ("inet", inet), ("macaddr", macaddr)]

/-- The base type with the given name. Blanks around the name and the case of letters do not
count. -/
def ofSqlName? (name : String) : Option Scalar := spellings.lookup (foldCase (trimmed name))

/-- The owned Rust type that holds a value. -/
def rustType : Scalar → String
  | bool => "bool"
  | char => "i8"
  | int2 => "i16"
  | int4 => "i32"
  | int8 => "i64"
  | float4 => "f32"
  | float8 => "f64"
  | numeric => "rust_decimal::Decimal"
  | text | varchar => "String"
  | bytea => "Vec<u8>"
  | uuid => "uuid::Uuid"
  | json | jsonb => "serde_json::Value"
  | date => "time::Date"
  | time => "time::Time"
  | timestamp => "time::PrimitiveDateTime"
  | timestamptz => "time::OffsetDateTime"
  | inet => "std::net::IpAddr"
  | macaddr => "eui48::MacAddress"

/-- Whether the Rust type is `Copy`. -/
def isCopy : Scalar → Bool
  | text | varchar | bytea | json | jsonb => false
  | _ => true

end Scalar

end AnnotatedSql
