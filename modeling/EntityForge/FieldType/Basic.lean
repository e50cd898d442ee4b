/-!
# Field types

A field type is a base type with a mark for optional values and a number of array dimensions. The
known base types have a canonical name, accepted spellings, a column type, a class of the
generated code and an expression for their zero value; any other base is a custom type, kept under
its own name.
-/

namespace EntityForge

/-- A base type that columns and generated classes know. -/
inductive BaseType where
  | uuid | string
  | i8 | i16 | i32 | i64
  | u8 | u16 | u32 | u64
  | f32 | f64
  | bool
  | datetime | date | time | naiveDatetime
  | json | decimal | ip | mac | bytes
  deriving DecidableEq, Repr, Inhabited

namespace BaseType

/-- Every base type. -/
def all : List BaseType := [
  .uuid, .string, .i8, .i16, .i32, .i64, .u8, .u16, .u32, .u64, .f32, .f64, .bool,
  .datetime, .date, .time, .naiveDatetime, .json, .decimal, .ip, .mac, .bytes]

/-- The canonical name. -/
def name : BaseType → String
  | .uuid => "uuid"
  | .string => "string"
  | .i8 => "i8"
  | .i16 => "i16"
  | .i32 => "i32"
  | .i64 => "i64"
  | .u8 => "u8"
  | .u16 => "u16"
  | .u32 => "u32"
  | .u64 => "u64"
  | .f32 => "f32"
  | .f64 => "f64"
  | .bool => "bool"
  | .datetime => "datetime"
  | .date => "date"
  | .time => "time"
  | .naiveDatetime => "naive_datetime"
  | .json => "json"
  | .decimal => "decimal"
  | .ip => "ip"
  | .mac => "mac"
  | .bytes => "bytes"

/-- The accepted spellings, the canonical name among them. -/
def spellings : BaseType → List String
  | .uuid => ["uuid", "Uuid", "UUID", "uuid::Uuid"]
  | .string => ["string", "String", "str", "text"]
  | .i8 => ["i8"]
  | .i16 => ["i16"]
  | .i32 => ["i32"]
  | .i64 => ["i64", "int"]
  | .u8 => ["u8"]
  | .u16 => ["u16"]
  | .u32 => ["u32"]
  | .u64 => ["u64"]
  | .f32 => ["f32"]
  | .f64 => ["f64", "float"]
  | .bool => ["bool"]
  | .datetime => ["datetime", "DateTime", "chrono::DateTime"]
  | .date => ["date", "NaiveDate", "chrono::NaiveDate"]
  | .time => ["time", "NaiveTime", "chrono::NaiveTime"]
  | .naiveDatetime => ["naive_datetime", "NaiveDateTime", "chrono::NaiveDateTime"]
  | .json => ["json", "Value", "serde_json::Value", "Json"]
  | .decimal => ["decimal", "Decimal", "BigDecimal"]
  | .ip => ["ip", "IpAddr", "Ipv4Addr", "Ipv6Addr"]
  | .mac => ["mac", "MacAddr"]
  | .bytes => ["bytes", "Bytes"]

/-- The base type with a spelling. -/
def ofSpelling? (s : String) : Option BaseType := all.find? fun b => b.spellings.contains s

/-- The base type with a canonical name. -/
def ofName? (s : String) : Option BaseType := all.find? fun b => b.name == s

/-- The column type. -/
def column : BaseType → String
  | .uuid => "UUID"
  | .string => "TEXT"
  | .i8 | .i16 | .u8 => "SMALLINT"
  | .i32 | .u16 => "INTEGER"
  | .i64 | .u32 | .u64 => "BIGINT"
  | .f32 => "REAL"
  | .f64 => "DOUBLE PRECISION"
  | .bool => "BOOLEAN"
  | .datetime => "TIMESTAMPTZ"
  | .date => "DATE"
  | .time => "TIME"
  | .naiveDatetime => "TIMESTAMP"
  | .json => "JSONB"
  | .decimal => "DECIMAL"
  | .ip => "INET"
  | .mac => "MACADDR"
  | .bytes => "BYTEA"

/-- The class of values in the generated code, and the module it comes from unless it is built
in. -/
def valueClass : BaseType → String × Option String
  | .uuid => ("UUID", some "uuid")
  | .string | .mac => ("str", none)
  | .i8 | .i16 | .i32 | .i64 | .u8 | .u16 | .u32 | .u64 => ("int", none)
  | .f32 | .f64 => ("float", none)
  | .bool => ("bool", none)
  | .datetime | .naiveDatetime => ("datetime", some "datetime")
  | .date => ("date", some "datetime")
  | .time => ("time", some "datetime")
  | .json => ("Any", some "typing")
  | .decimal => ("Decimal", some "decimal")
  | .ip => ("IPvAnyAddress", some "pydantic")
  | .bytes => ("bytes", none)

/-- The expression for the zero value, and the import it needs. -/
def zero : BaseType → String × List (String × List String)
  | .uuid => ("UUID(int=0)", [("uuid", ["UUID"])])
  | .string | .mac => ("\"\"", [])
  | .i8 | .i16 | .i32 | .i64 | .u8 | .u16 | .u32 | .u64 => ("0", [])
  | .f32 | .f64 => ("0.0", [])
  | .bool => ("False", [])
  | .datetime => ("datetime.now(timezone.utc)", [("datetime", ["datetime", "timezone"])])
  | .naiveDatetime => ("datetime.now()", [("datetime", ["datetime"])])
  | .date => ("date.today()", [("datetime", ["date"])])
  | .time => ("time()", [("datetime", ["time"])])
  | .decimal => ("Decimal(\"0\")", [("decimal", ["Decimal"])])
  | .bytes => ("b\"\"", [])
  | .json | .ip => ("None", [])

/-- Values can be compared with `<=`. -/
def isOrdered : BaseType → Bool
  | .bool | .json | .bytes | .mac | .uuid => false
  | _ => true

end BaseType

/-- The type of a field. -/
structure FieldType where
  /-- The type as it was written. -/
  raw : String
  /-- The canonical name of a known base type, or the name of a custom type. -/
  base : String
  nullable : Bool := false
  arrayDim : Nat := 0
  /-- The base is meant to be a known one. -/
  known : Bool := true
  deriving DecidableEq, Repr, Inhabited

namespace FieldType

/-- The known base type, unless the type is a custom one. -/
def baseType? (t : FieldType) : Option BaseType := if t.known then BaseType.ofName? t.base else none

/-- The base is a known one by its mark, but no base type has its name. -/
def isDangling (t : FieldType) : Bool := t.known && (BaseType.ofName? t.base).isNone

/-- A single text. -/
def isTextual (t : FieldType) : Bool := t.known && t.base == "string" && t.arrayDim == 0

/-- A single value of a type whose values can be compared. -/
def isOrderable (t : FieldType) : Bool :=
  t.known && t.arrayDim == 0 && !(["bool", "json", "bytes", "mac", "uuid"].contains t.base)

/-- A single universally unique identifier. -/
def isUuid (t : FieldType) : Bool := t.known && t.base == "uuid" && t.arrayDim == 0

/-- The form of a field type in log lines. -/
def label (t : FieldType) : String := "<TypeRef " ++ t.raw ++ ">"

end FieldType

end EntityForge
