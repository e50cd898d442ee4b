import EntityForge.FieldType.Basic
import EntityForge.Entity.Vocabulary

/-!
# Column types

The column type of a field: an explicit type of the column hints, or the column type of the base
with its array dimensions. A text with a width is a text of bounded length; a custom type is stored
as text. A column admits null when the field type or the hints say so.
-/

namespace EntityForge

/-- The hints on how a field is stored. -/
structure ColumnHints where
  unique : Bool := false
  index : Option IndexKind := none
  /-- The expression of the default value. -/
  defaultValue : Option String := none
  /-- The expression of the check on the column's values. -/
  constraint : Option String := none
  /-- The greatest length of a text. -/
  width : Option Nat := none
  /-- An explicit column type. -/
  sqlType : Option String := none
  nullable : Bool := false
  /-- The column's name, where it is not that of the field. -/
  name : Option String := none
  deriving DecidableEq, Repr, Inhabited

/-- The type of a column. -/
structure ColumnType where
  name : String
  nullable : Bool
  arrayDim : Nat
  deriving DecidableEq, Repr

namespace ColumnType

/-- The written type, with a pair of brackets for every array dimension. -/
def text (t : ColumnType) : String := t.name ++ .join (List.replicate t.arrayDim "[]")

/-- The name of the type of one element. -/
def elementName (t : FieldType) (hints : ColumnHints) : String :=
  let ofBase := (t.baseType?.map BaseType.column).getD "TEXT"
  match hints.width with
  | some width => if t.base = "string" then s!"VARCHAR({width})" else ofBase
  | none => ofBase

/-- The column type of a field. -/
def ofField (t : FieldType) (hints : ColumnHints) : ColumnType :=
  let nullable := t.nullable || hints.nullable
  match hints.sqlType with
  | some explicit =>
    if explicit.isEmpty then ⟨elementName t hints, nullable, t.arrayDim⟩ else ⟨explicit, nullable, 0⟩
  | none => ⟨elementName t hints, nullable, t.arrayDim⟩

end ColumnType

end EntityForge
